import Minerva.Library.JsText
import Minerva.Library.Utf8

/-! Streams of Server-Sent Events, as the HTML standard has a client read them. -/

namespace EventStream

abbrev Text := List Char

structure Message where
  type : Text
  data : Text
  lastEventId : Text
  deriving DecidableEq

structure Buffers where
  type : Text
  data : Text
  lastEventId : Text

def Buffers.empty : Buffers := ⟨[], [], []⟩

/-- The lines that have an end, a CR, an LF or both; `line` is what has been read of the first. -/
def linesFrom (line : Text) : Text → List Text
  | [] => []
  | '\n' :: rest => line :: linesFrom [] rest
  | '\r' :: '\n' :: rest => line :: linesFrom [] rest
  | '\r' :: rest => line :: linesFrom [] rest
  | c :: rest => linesFrom (line ++ [c]) rest

def lines (text : Text) : List Text := linesFrom [] text

/-- A field; `retry` sets the reconnection time, which is no part of a message, and any other name
is ignored. -/
def Buffers.field (buffers : Buffers) (name value : Text) : Buffers :=
  if name = "event".toList then { buffers with type := value }
  else if name = "data".toList then { buffers with data := buffers.data ++ value ++ ['\n'] }
  else if name = "id".toList then
    if '\x00' ∈ value then buffers else { buffers with lastEventId := value }
  else buffers

def fieldValue (line : Text) : Text :=
  match line.dropWhile (fun c => c ≠ ':') with
  | ':' :: ' ' :: value => value
  | ':' :: value => value
  | _ => []

def Buffers.line (buffers : Buffers) (line : Text) : Buffers :=
  -- a comment
  if line.head? = some ':' then buffers
  else buffers.field (line.takeWhile (fun c => c ≠ ':')) (fieldValue line)

def Buffers.dispatch (buffers : Buffers) : Option Message :=
  if buffers.data = [] then none
  else some
    { type := if buffers.type = [] then "message".toList else buffers.type
      data :=
        if buffers.data.getLast? = some '\n' then buffers.data.dropLast else buffers.data
      lastEventId := buffers.lastEventId }

/-- The messages of some lines; what is pending at the end is discarded. -/
def interpret (buffers : Buffers) : List Text → List Message
  | [] => []
  | [] :: rest => buffers.dispatch.toList ++ interpret ⟨[], [], buffers.lastEventId⟩ rest
  | line :: rest => interpret (buffers.line line) rest

def withoutMark : Text → Text
  | '\uFEFF' :: text => text
  | text => text

def messages (bytes : List UInt8) : List Message :=
  interpret .empty (lines (withoutMark (Utf8.decode bytes)))

example : messages (Utf8.encode "id: 7\nevent:a\r\ndata: x\rdata:  y\n:note\n\ndata: lost".toList) =
    [⟨"a".toList, "x\n y".toList, "7".toList⟩] := by decide +kernel

theorem linesFrom_append (line : Text) {more : Text} (oneLine : OneLine more) (rest : Text) :
    linesFrom line (more ++ '\n' :: rest) = (line ++ more) :: lines rest := by
  induction more generalizing line with
  | nil =>
      rw [List.append_nil]
      rfl
  | cons c more ih =>
      obtain ⟨carriage, feed⟩ := oneLine c List.mem_cons_self
      have step : linesFrom line (c :: (more ++ '\n' :: rest)) =
          linesFrom (line ++ [c]) (more ++ '\n' :: rest) := by
        rw [linesFrom]
        · exact feed
        · exact fun _ same _ => carriage same
        · exact carriage
      rw [List.cons_append, step, ih _ (fun d member => oneLine d (List.mem_cons_of_mem _ member)),
        List.append_assoc]
      rfl

theorem lines_cons {line : Text} (oneLine : OneLine line) (rest : Text) :
    lines (line ++ '\n' :: rest) = line :: lines rest :=
  linesFrom_append [] oneLine rest

def fieldLine (name value : Text) : Text := name ++ ':' :: ' ' :: value

theorem line_fieldLine (buffers : Buffers) {name : Text} (filled : name ≠ [])
    (noColon : ':' ∉ name) (value : Text) :
    buffers.line (fieldLine name value) = buffers.field name value := by
  have before : ∀ c ∈ name, decide (c ≠ ':') = true := by
    intro c member
    apply decide_eq_true
    rintro rfl
    exact noColon member
  have first : (fieldLine name value).head? ≠ some ':' := by
    cases name with
    | nil => exact absurd rfl filled
    | cons c name =>
        intro same
        cases same
        exact noColon List.mem_cons_self
  have taken : (fieldLine name value).takeWhile (fun c => c ≠ ':') = name := by
    rw [fieldLine, List.takeWhile_append_of_pos before]
    exact List.append_nil name
  have dropped : (fieldLine name value).dropWhile (fun c => c ≠ ':') = ':' :: ' ' :: value := by
    rw [fieldLine, List.dropWhile_append_of_pos before]
    rfl
  rw [Buffers.line, if_neg first, taken, fieldValue, dropped]
  rfl

/-- What a server sends: a message with its three fields, or a comment; an empty line ends both. -/
inductive Item where
  | message (event : Message)
  | comment (note : Text)

namespace Item

def text : Item → Text
  | .message event =>
    fieldLine "id".toList event.lastEventId ++ '\n' ::
      (fieldLine "event".toList event.type ++ '\n' ::
        (fieldLine "data".toList event.data ++ '\n' :: ['\n']))
  | .comment note => ':' :: (note ++ '\n' :: ['\n'])

def sent : Item → Option Message
  | .message event => some event
  | .comment _ => none

def Sound : Item → Prop
  | .message event =>
    (OneLine event.lastEventId ∧ '\x00' ∉ event.lastEventId) ∧
      (OneLine event.type ∧ event.type ≠ []) ∧ OneLine event.data
  | .comment note => OneLine note

def lastEventId (before : Text) : Item → Text
  | .message event => event.lastEventId
  | .comment _ => before

end Item

theorem oneLine_fieldLine {name value : Text} (named : OneLine name) (valued : OneLine value) :
    OneLine (fieldLine name value) :=
  named.append ((valued.cons (by decide)).cons (by decide))

theorem interpret_fieldLine (buffers : Buffers) {name value : Text} (filled : name ≠ [])
    (noColon : ':' ∉ name) (named : OneLine name) (valued : OneLine value) (rest : Text) :
    interpret buffers (lines (fieldLine name value ++ '\n' :: rest)) =
      interpret (buffers.field name value) (lines rest) := by
  rw [lines_cons (oneLine_fieldLine named valued), ← line_fieldLine buffers filled noColon value]
  cases line : fieldLine name value with
  | nil =>
      have long : (fieldLine name value).length = name.length + value.length + 2 := by
        simp [fieldLine]
        omega
      rw [line] at long
      cases long
  | cons c more => rfl

theorem interpret_empty_line (buffers : Buffers) (rest : Text) :
    interpret buffers (lines ('\n' :: rest)) =
      buffers.dispatch.toList ++ interpret ⟨[], [], buffers.lastEventId⟩ (lines rest) := rfl

theorem interpret_item {item : Item} (sound : item.Sound) (before rest : Text) :
    interpret ⟨[], [], before⟩ (lines (item.text ++ rest)) =
      item.sent.toList ++ interpret ⟨[], [], item.lastEventId before⟩ (lines rest) := by
  cases item with
  | comment note =>
      have short : OneLine note := sound
      have line : OneLine (':' :: note) := short.cons (by decide)
      calc interpret ⟨[], [], before⟩ (lines (Item.text (.comment note) ++ rest))
        _ = interpret ⟨[], [], before⟩ (lines ((':' :: note) ++ '\n' :: ('\n' :: rest))) := by
          simp [Item.text]
        _ = interpret ⟨[], [], before⟩ ((':' :: note) :: lines ('\n' :: rest)) := by
          rw [lines_cons line]
        _ = [] ++ interpret ⟨[], [], before⟩ (lines rest) := rfl
  | message event =>
      obtain ⟨type, data, id⟩ := event
      obtain ⟨⟨id_line, noNull⟩, ⟨type_line, filled⟩, data_line⟩ := sound
      have id_field : Buffers.field ⟨[], [], before⟩ "id".toList id = ⟨[], [], id⟩ := by
        show (if '\x00' ∈ id then _ else _) = _
        rw [if_neg noNull]
      have read : Buffers.dispatch ⟨type, data ++ ['\n'], id⟩ = some ⟨type, data, id⟩ := by
        simp [Buffers.dispatch, filled]
      calc interpret ⟨[], [], before⟩ (lines (Item.text (.message ⟨type, data, id⟩) ++ rest))
        _ = interpret ⟨[], [], before⟩ (lines (fieldLine "id".toList id ++ '\n' ::
              (fieldLine "event".toList type ++ '\n' ::
                (fieldLine "data".toList data ++ '\n' :: ('\n' :: rest))))) := by
          simp [Item.text]
        _ = interpret ⟨[], [], id⟩ (lines (fieldLine "event".toList type ++ '\n' ::
              (fieldLine "data".toList data ++ '\n' :: ('\n' :: rest)))) := by
          rw [interpret_fieldLine _ (by decide) (by decide) (by decide) id_line, id_field]
        _ = interpret ⟨type, [], id⟩
              (lines (fieldLine "data".toList data ++ '\n' :: ('\n' :: rest))) :=
          interpret_fieldLine _ (by decide) (by decide) (by decide) type_line _
        _ = interpret ⟨type, data ++ ['\n'], id⟩ (lines ('\n' :: rest)) :=
          interpret_fieldLine _ (by decide) (by decide) (by decide) data_line _
        _ = [⟨type, data, id⟩] ++ interpret ⟨[], [], id⟩ (lines rest) := by
          rw [interpret_empty_line, read]
          rfl

theorem interpret_items (items : List Item) (sound : ∀ item ∈ items, item.Sound) (before : Text) :
    interpret ⟨[], [], before⟩ (lines (items.flatMap Item.text)) = items.filterMap Item.sent := by
  induction items generalizing before with
  | nil => rfl
  | cons item items ih =>
      have mine := sound item List.mem_cons_self
      have later := ih (fun other member => sound other (List.mem_cons_of_mem _ member))
      rw [List.flatMap_cons, interpret_item mine, later]
      cases item <;> rfl

/-- A client reads the messages that were sent, in their order, and nothing else. -/
theorem messages_items (items : List Item) (sound : ∀ item ∈ items, item.Sound) :
    messages (Utf8.encode (items.flatMap Item.text)) = items.filterMap Item.sent := by
  have unmarked : withoutMark (items.flatMap Item.text) = items.flatMap Item.text := by
    cases items with
    | nil => rfl
    | cons item items => cases item <;> rfl
  rw [messages, Utf8.decode_encode, unmarked]
  exact interpret_items items sound []

end EventStream
