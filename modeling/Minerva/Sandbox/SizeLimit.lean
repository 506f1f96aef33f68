import Minerva.Sandbox.ByteStore
import Minerva.Tools.FileCalls

namespace Minerva

def Encoding.option (encoding : Option Encoding) : JsValue :=
  (encoding.map Encoding.value).getD .undefined

theorem byteLength_base64 (content : String) :
    byteLength content (Encoding.option (some .base64)) = base64ByteLength content := rfl

theorem byteLength_text (content : String) {encoding : Option Encoding}
    (text : encoding ≠ some .base64) :
    byteLength content (Encoding.option encoding) = (fileBytes content).length := by
  cases encoding with
  | none => rfl
  | some encoding =>
      cases encoding with
      | utf8 => rfl
      | base64 => exact absurd rfl text

theorem utf8Size_units (c : Char) :
    (Utf16.units c).length ≤ c.utf8Size ∧ c.utf8Size ≤ 3 * (Utf16.units c).length := by
  have value : c.toNat = c.val.toNat := rfl
  rw [Utf16.length_units]
  unfold Char.utf8Size
  simp only [UInt32.le_iff_toNat_le, ← value, UInt32.toNat_ofNatLT]
  split <;> split <;> (try split) <;> (try split) <;> omega

theorem fileBytes_length (content : String) :
    jsLength content ≤ (fileBytes content).length ∧
      (fileBytes content).length ≤ 3 * jsLength content := by
  unfold jsLength fileBytes Utf8.encode
  induction content.toList with
  | nil => exact ⟨Nat.le_refl 0, Nat.le_refl 0⟩
  | cons c rest ih =>
      have size := utf8Size_units c
      rw [List.flatMap_cons, List.length_append, String.length_utf8EncodeChar, Utf16.encode_cons,
        List.length_append]
      omega

theorem base64ByteLength_units (content : String) :
    base64ByteLength content ≤ jsLength content ∧
      3 * jsLength content ≤ 4 * base64ByteLength content + 9 := by
  unfold jsLength base64ByteLength
  simp only
  generalize (Utf16.encode content.toList).length = length
  split <;> split <;> omega

namespace FilesystemService

variable (service : FilesystemService) (w : DaytonaWorld) (workspaceId : WorkspaceId)
  (userPath content : String)

/-- If the write succeeds, what is then in the file is not above the limit. -/
def WithinLimit (encoding : JsValue) : Prop :=
  (service.writeFile w workspaceId userPath content encoding).2 = .resolved () →
    ∃ path bytes, service.locate userPath workspaceId = .ok path ∧
      (service.writeFile w workspaceId userPath content encoding).1.files workspaceId path =
        some bytes ∧
      bytes.length ≤ service.maxFileSize

/-- The path is accepted, the content is as long as base64 as the limit allows, and longer as the
text that it is. -/
def Overlong : Prop :=
  (validatePath service.cwd userPath getWorkspaceRoot).isValid = true ∧
    base64ByteLength content ≤ service.maxFileSize ∧
    service.maxFileSize < (fileBytes content).length

variable {service w workspaceId userPath content} {path : String} {encoding : JsValue}

theorem locate_ok_iff (workspaceId : WorkspaceId) :
    (∃ path, service.locate userPath workspaceId = .ok path) ↔
      (validatePath service.cwd userPath getWorkspaceRoot).isValid = true := by
  unfold locate
  by_cases valid : (validatePath service.cwd userPath getWorkspaceRoot).isValid = true
  · simp only [valid, if_true]
    exact ⟨fun _ => trivial, fun _ => ⟨_, rfl⟩⟩
  · simp only [valid]
    exact ⟨fun located => absurd located (by simp), fun accepted => absurd accepted (by simp)⟩

theorem writeFile_resolves_iff (located : service.locate userPath workspaceId = .ok path) :
    (service.writeFile w workspaceId userPath content encoding).2 = .resolved () ↔
      byteLength content encoding ≤ service.maxFileSize := by
  unfold writeFile
  rw [located]
  simp only
  split
  · next large => simpa using large
  · next small => simpa using small

theorem writeFile_uploads (located : service.locate userPath workspaceId = .ok path)
    (fits : byteLength content encoding ≤ service.maxFileSize) :
    (service.writeFile w workspaceId userPath content encoding).1.files workspaceId path =
      some (fileBytes content) := by
  unfold writeFile
  rw [located]
  simp only
  rw [if_neg (Nat.not_lt.mpr fits)]
  simp only [Function.update_self]

theorem withinLimit_iff (located : service.locate userPath workspaceId = .ok path) :
    service.WithinLimit w workspaceId userPath content encoding ↔
      (byteLength content encoding ≤ service.maxFileSize →
        (fileBytes content).length ≤ service.maxFileSize) := by
  unfold WithinLimit
  rw [writeFile_resolves_iff located]
  constructor
  · intro within fits
    obtain ⟨other, bytes, found, file, small⟩ := within fits
    rw [located, Except.ok.injEq] at found
    subst found
    rw [writeFile_uploads located fits, Option.some_inj] at file
    rw [file]
    exact small
  · intro small fits
    exact ⟨path, fileBytes content, located, writeFile_uploads located fits, small fits⟩

/-- The limit holds of what is uploaded, but for content that is declared as base64: that is
measured as the bytes that it stands for and uploaded as the text that it is. -/
theorem upload_within_limit (encoding : Option Encoding) :
    service.WithinLimit w workspaceId userPath content (Encoding.option encoding) ↔
      ¬(encoding = some .base64 ∧ service.Overlong userPath content) := by
  by_cases valid : (validatePath service.cwd userPath getWorkspaceRoot).isValid = true
  · obtain ⟨path, located⟩ := (locate_ok_iff workspaceId).mpr valid
    rw [withinLimit_iff located]
    by_cases text : encoding = some .base64
    · subst text
      rw [byteLength_base64]
      unfold Overlong
      simp [valid]
    · rw [byteLength_text content text]
      simp [text]
  · have refused : ∀ path, service.locate userPath workspaceId ≠ .ok path := by
      intro path located
      exact valid ((locate_ok_iff workspaceId).mp ⟨path, located⟩)
    constructor
    · rintro _ ⟨_, accepted, _⟩
      exact valid accepted
    · intro _ resolved
      obtain ⟨path, located, _⟩ := writeFile_resolved service resolved
      exact absurd located (refused path)

theorem encoded_text_exceeds_limit :
    ¬∀ (service : FilesystemService) (w : DaytonaWorld) (workspaceId : WorkspaceId)
      (userPath content : String) (encoding : Option Encoding),
      service.WithinLimit w workspaceId userPath content (Encoding.option encoding) := by
  intro always
  have within := always ⟨5, ['/']⟩ emptySandbox "ws-1" "hello.txt" "aGVsbG8=" (some .base64)
  have overlong : (⟨5, ['/']⟩ : FilesystemService).Overlong "hello.txt" "aGVsbG8=" := by
    refine ⟨by decide, by decide, by decide⟩
  exact (upload_within_limit (some .base64)).mp within ⟨rfl, overlong⟩

/-- How far a write can pass the limit. -/
theorem upload_at_most (encoding : Option Encoding)
    (resolved : (service.writeFile w workspaceId userPath content
      (Encoding.option encoding)).2 = .resolved ()) :
    (fileBytes content).length ≤ 4 * service.maxFileSize + 9 := by
  obtain ⟨path, located, _⟩ := writeFile_resolved service resolved
  have fits := (writeFile_resolves_iff located).mp resolved
  by_cases text : encoding = some .base64
  · subst text
    rw [byteLength_base64] at fits
    have units := base64ByteLength_units content
    have bytes := fileBytes_length content
    omega
  · rw [byteLength_text content text] at fits
    omega

/-- A file that was written past the limit cannot be read again. -/
theorem overlong_file_is_unreadable (overlong : service.Overlong userPath content) :
    ∃ error, service.readFile
      (service.writeFile w workspaceId userPath content (Encoding.option (some .base64))).1
      workspaceId userPath = .rejected error := by
  obtain ⟨valid, fits, long⟩ := overlong
  obtain ⟨path, located⟩ := (locate_ok_iff workspaceId).mpr valid
  rw [← byteLength_base64] at fits
  have stored := writeFile_uploads (w := w) located fits
  unfold readFile
  rw [located]
  simp only [stored]
  rw [if_pos long]
  exact ⟨_, rfl⟩

end FilesystemService

end Minerva
