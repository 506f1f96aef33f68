import Minerva.Sandbox.Filesystem

namespace Minerva

/-- The encodings that the schemas of the tools allow. -/
inductive Encoding where
  | utf8
  | base64
  deriving DecidableEq

namespace Encoding

def value : Encoding → JsValue
  | .utf8 => .string "utf-8"
  | .base64 => .string "base64"

def decode : Encoding → String → Bytes
  | .utf8, content => fileBytes content
  | .base64, content => Base64.decode (Utf16.encode content.toList)

def encode : Encoding → Bytes → String
  | .utf8, bytes => String.ofList (Utf8.decode bytes)
  | .base64, bytes => String.ofList (Base64.encode bytes)

end Encoding

/-- The reference model: the bytes of each file. -/
abbrev ByteStore := String → Option Bytes

namespace ByteStore

def prior (store : ByteStore) (path : String) (append : Bool) : Bytes :=
  if append then (store path).getD [] else []

def write (store : ByteStore) (path content : String) (encoding : Encoding) (append : Bool) :
    ByteStore :=
  Function.update store path (some (store.prior path append ++ encoding.decode content))

def read (store : ByteStore) (path : String) (encoding : Encoding) : Option String :=
  (store path).map encoding.encode

end ByteStore

def withoutMark : List Char → List Char
  | '\uFEFF' :: text => text
  | text => text

theorem blobText_eq (bytes : Bytes) :
    blobText bytes = String.ofList (withoutMark (Utf8.decode bytes)) := by
  unfold blobText
  cases Utf8.decode bytes with
  | nil => rfl
  | cons c text =>
      by_cases mark : c = '\uFEFF'
      · subst mark
        rfl
      · simp [withoutMark, mark]

theorem withoutMark_length_le (text : List Char) : (withoutMark text).length ≤ text.length := by
  unfold withoutMark
  split <;> simp

theorem eq_withoutMark_iff (text : List Char) :
    text = withoutMark text ↔ text.head? ≠ some '\uFEFF' := by
  unfold withoutMark
  split
  · simp
  · next marked => cases text with
    | nil => simp
    | cons c rest =>
        simp only [List.head?_cons, ne_eq, Option.some_inj, true_iff]
        rintro rfl
        exact marked rest rfl

theorem base64_withoutMark (text : List Char) :
    Base64.decode (Utf16.encode (withoutMark text)) = Base64.decode (Utf16.encode text) := by
  unfold withoutMark
  split
  · next text =>
      have mark : Utf16.encode ('\uFEFF' :: text) = 0xFEFF :: Utf16.encode text := rfl
      rw [mark]
      unfold Base64.decode
      rw [Base64.sextets_skip (Utf16.encode text) (by decide) (by decide)]
  · rfl

/-- What has been done to a file: nothing yet, or a last write, which the reference model puts
after the bytes of `prior`. -/
inductive FileHistory where
  | initial (bytes : Bytes)
  | written (prior : Bytes) (encoding : Encoding) (content : String)

namespace FileHistory

def reference : FileHistory → Bytes
  | .initial bytes => bytes
  | .written prior encoding content => prior ++ encoding.decode content

def stored : FileHistory → Bytes
  | .initial bytes => bytes
  | .written _ _ content => fileBytes content

/-- The inputs on which a read shows what the reference model shows. -/
def Shows : FileHistory → Encoding → Prop
  | .initial bytes, .utf8 => (Utf8.decode bytes).head? ≠ some '\uFEFF'
  | .initial bytes, .base64 => bytes = []
  | .written prior .utf8 content, .utf8 => prior = [] ∧ content.toList.head? ≠ some '\uFEFF'
  | .written prior .utf8 content, .base64 => prior = [] ∧ content.toList = []
  | .written prior .base64 content, .base64 =>
    prior = [] ∧ ∃ bytes, withoutMark content.toList = Base64.encode bytes
  | .written prior .base64 content, .utf8 =>
    if prior = [] then withoutMark content.toList = []
    else withoutMark content.toList = Utf8.decode (prior ++ Encoding.base64.decode content)

theorem base64_eq_decoded_iff (bytes : Bytes) :
    Base64.encode bytes = withoutMark (Utf8.decode bytes) ↔ bytes = [] := by
  constructor
  · intro same
    have lengths := congrArg List.length same
    have shown := withoutMark_length_le (Utf8.decode bytes)
    have decoded := Utf8.length_decode_le bytes
    rw [Base64.length_encode] at lengths
    have none : bytes.length = 0 := by omega
    exact List.length_eq_zero_iff.mp none
  · rintro rfl
    rfl

theorem shown_utf8_iff (prior : Bytes) (content : List Char) :
    Utf8.decode (prior ++ Utf8.encode content) = withoutMark content ↔
      prior = [] ∧ content.head? ≠ some '\uFEFF' := by
  rw [Utf8.decode_append, ← eq_withoutMark_iff]
  constructor
  · intro same
    have lengths := congrArg List.length same
    have shorter := withoutMark_length_le content
    rw [List.length_append] at lengths
    have decoded : Utf8.decode prior = [] := List.length_eq_zero_iff.mp (by omega)
    rw [decoded, List.nil_append] at same
    exact ⟨(Utf8.decode_eq_nil_iff prior).mp decoded, same⟩
  · rintro ⟨rfl, unmarked⟩
    exact unmarked

theorem shown_base64_iff (prior : Bytes) (content : List Char) :
    Base64.encode (prior ++ Utf8.encode content) = withoutMark content ↔
      prior = [] ∧ content = [] := by
  constructor
  · intro same
    have lengths := congrArg List.length same
    have shorter := withoutMark_length_le content
    have longer := Utf8.length_le_encode content
    rw [Base64.length_encode, List.length_append] at lengths
    exact ⟨List.length_eq_zero_iff.mp (by omega), List.length_eq_zero_iff.mp (by omega)⟩
  · rintro ⟨rfl, rfl⟩
    rfl

theorem canonical_iff (prior : Bytes) (content : List Char) :
    Base64.encode (prior ++ Base64.decode (Utf16.encode content)) = withoutMark content ↔
      prior = [] ∧ ∃ bytes, withoutMark content = Base64.encode bytes := by
  constructor
  · intro same
    have decoded := congrArg (fun text => Base64.decode (Utf16.encode text)) same
    simp only [Base64.decode_encode, base64_withoutMark] at decoded
    have lengths := congrArg List.length decoded
    rw [List.length_append] at lengths
    exact ⟨List.length_eq_zero_iff.mp (by omega), _, same.symm⟩
  · rintro ⟨rfl, bytes, canonical⟩
    rw [List.nil_append, ← base64_withoutMark, canonical, Base64.decode_encode]

theorem shown_decoded_iff (prior : Bytes) (content : List Char) :
    Utf8.decode (prior ++ Base64.decode (Utf16.encode content)) = withoutMark content ↔
      if prior = [] then withoutMark content = []
      else withoutMark content =
        Utf8.decode (prior ++ Base64.decode (Utf16.encode content)) := by
  split
  · next fresh =>
      subst fresh
      rw [List.nil_append, ← base64_withoutMark]
      constructor
      · intro same
        have lengths := congrArg (fun text => (Utf16.encode text).length) same
        have decoded := Base64.length_decode_le (Utf16.encode (withoutMark content))
        have shown := Utf8.length_units_decode_le
          (Base64.decode (Utf16.encode (withoutMark content)))
        have units := Utf16.length_le_encode (withoutMark content)
        exact List.length_eq_zero_iff.mp (by omega)
      · intro empty
        rw [empty]
        rfl
  · exact eq_comm

/-- A read answers as the reference model does exactly on the inputs of `Shows`. -/
theorem shows_iff (history : FileHistory) (encoding : Encoding) :
    blobText history.stored = encoding.encode history.reference ↔ history.Shows encoding := by
  rw [blobText_eq, eq_comm]
  cases history with
  | initial bytes =>
      cases encoding with
      | utf8 =>
          simp only [Encoding.encode, String.ofList_inj, stored, reference, Shows]
          exact eq_withoutMark_iff _
      | base64 =>
          simp only [Encoding.encode, String.ofList_inj, stored, reference, Shows]
          exact base64_eq_decoded_iff bytes
  | written prior kind content =>
      have shown : Utf8.decode (fileBytes content) = content.toList := Utf8.decode_encode _
      cases kind <;> cases encoding <;>
        simp only [Encoding.encode, String.ofList_inj, stored, reference, Shows, shown,
          Encoding.decode]
      · exact shown_utf8_iff prior content.toList
      · exact shown_base64_iff prior content.toList
      · exact shown_decoded_iff prior content.toList
      · exact canonical_iff prior content.toList

end FileHistory

end Minerva
