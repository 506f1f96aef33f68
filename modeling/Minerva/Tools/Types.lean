import Minerva.Library.Json
import Minerva.Sandbox.Errors

namespace Minerva

inductive JsValue where
  | undefined
  | null
  | bool (value : Bool)
  | number (value : JsNumber)
  | string (value : String)
  | object (fields : List (String × JsValue))

/-- A value that was thrown: what `instanceof Error`, its properties and `String(..)` say. -/
structure ThrownValue where
  isError : Bool
  /-- `code`, if it is an object with a text there -/
  code : Option String
  message : JsValue
  details : Option Json
  /-- `String(error)`, if that does not throw -/
  text : Option String

def ThrownValue.error (message : String) : ThrownValue :=
  ⟨true, none, .string message, none, some ("Error: " ++ message)⟩

def ThrownValue.typeError (message : String) : ThrownValue :=
  ⟨true, none, .string message, none, some ("TypeError: " ++ message)⟩

def SandboxError.thrown (error : SandboxError) : ThrownValue :=
  ⟨true, some error.code, .string error.message, none, some ("SandboxError: " ++ error.message)⟩

namespace JsValue

def truthy : JsValue → Bool
  | .undefined => false
  | .null => false
  | .bool value => value
  | .number value => !value.falsy
  | .string value => value ≠ ""
  | .object _ => true

def member (value : JsValue) (name : String) : Except ThrownValue JsValue :=
  match value with
  | .undefined =>
    .error (.typeError ("Cannot read properties of undefined (reading '" ++ name ++ "')"))
  | .null => .error (.typeError ("Cannot read properties of null (reading '" ++ name ++ "')"))
  | .object fields => .ok ((fields.lookup name).getD .undefined)
  | _ => .ok .undefined

/-- The text in which `value.includes(..)` looks, or what the call throws. -/
def searched (value : JsValue) (callee : String) : Except ThrownValue String :=
  match value with
  | .string text => .ok text
  | value =>
    match value.member "includes" with
    | .error error => .error error
    | .ok _ => .error (.typeError (callee ++ ".includes is not a function"))

def orElse (value other : JsValue) : JsValue :=
  match value with
  | .undefined => other
  | .null => other
  | value => value

def text : JsValue → String
  | .undefined => "undefined"
  | .null => "null"
  | .bool value => toString value
  | .number value => value.text
  | .string value => value
  | .object _ => "[object Object]"

end JsValue

inductive Promise (α : Type) where
  | resolved (value : α)
  | rejected (reason : ThrownValue)
  | pending

def Promise.settled {α : Type} : Except ThrownValue α → Promise α
  | .ok value => .resolved value
  | .error reason => .rejected reason

inductive ToolErrorCode where
  | fileNotFound
  | permissionDenied
  | commandFailed
  | validationError
  | timeout
  | cancelled
  | unknownError
  deriving DecidableEq, Repr

def ToolErrorCode.text : ToolErrorCode → String
  | .fileNotFound => "FILE_NOT_FOUND"
  | .permissionDenied => "PERMISSION_DENIED"
  | .commandFailed => "COMMAND_FAILED"
  | .validationError => "VALIDATION_ERROR"
  | .timeout => "TIMEOUT"
  | .cancelled => "CANCELLED"
  | .unknownError => "UNKNOWN_ERROR"

structure ToolError where
  code : ToolErrorCode
  message : JsValue
  details : Option Json

inductive ToolData where
  | read (content : String) (size : Nat) (encoding : JsValue) (truncated : Bool)
  | write (path : JsValue) (bytesWritten : JsValue) (encoding : JsValue)
  | bash (stdout stderr : String) (exitCode duration : Int) (truncated : Bool)

structure ToolResult where
  success : Bool
  data : Option ToolData
  error : Option ToolError

structure ToolContext where
  workspaceId : WorkspaceId
  runId : RunId
  userId : UserId

inductive ToolEvent where
  | start (toolCallId toolName : String) (args : List (String × JsValue))
  | update (toolCallId toolName kind data : String)
  | finish (toolCallId toolName : String) (result : ToolResult ⊕ ToolData) (isError : Bool)
      (durationMs : Int)

def createSuccessResult (data : ToolData) : ToolResult := ⟨true, some data, none⟩

def createErrorResult (code : ToolErrorCode) (message : JsValue) (details : Option Json) :
    ToolResult :=
  ⟨false, none, some ⟨code, message, details⟩⟩

/-- The codes with which an error passes as it is. -/
def acceptedCode (code : String) : Option ToolErrorCode :=
  if code = "FILE_NOT_FOUND" then some .fileNotFound
  else if code = "PERMISSION_DENIED" then some .permissionDenied
  else if code = "COMMAND_FAILED" then some .commandFailed
  else if code = "VALIDATION_ERROR" then some .validationError
  else if code = "TIMEOUT" then some .timeout
  else if code = "CANCELLED" then some .cancelled
  else none

/-- `error instanceof Error ? error.message : String(error)`, as the text that is searched. -/
def ThrownValue.errorMessage (error : ThrownValue) : Except ThrownValue String :=
  if error.isError then error.message.searched "errorMessage"
  else
    match error.text with
    | some text => .ok text
    | none => .error (.typeError "Cannot convert object to primitive value")

/-- The mapping throws where an error without an accepted code has no text. -/
def mapErrorToToolError (error : ThrownValue) : Except ThrownValue ToolError :=
  match error.code.bind acceptedCode with
  | some code => .ok ⟨code, error.message, error.details⟩
  | none =>
    match error.errorMessage with
    | .error thrown => .error thrown
    | .ok errorMessage =>
      if includes errorMessage "not found" || includes errorMessage "ENOENT" then
        .ok ⟨.fileNotFound, .string errorMessage, none⟩
      else if includes errorMessage "permission" || includes errorMessage "EACCES" then
        .ok ⟨.permissionDenied, .string errorMessage, none⟩
      else if includes errorMessage "timeout" || includes errorMessage "ETIMEDOUT" then
        .ok ⟨.timeout, .string errorMessage, none⟩
      else if includes errorMessage "cancelled" || includes errorMessage "abort" then
        .ok ⟨.cancelled, .string errorMessage, none⟩
      else .ok ⟨.unknownError, .string errorMessage, none⟩

def ThrownValue.Unmappable (error : ThrownValue) : Prop :=
  error.code.bind acceptedCode = none ∧
    if error.isError then ∀ text, error.message ≠ .string text else error.text = none

theorem JsValue.searched_ok_iff (value : JsValue) (callee : String) :
    (∃ text, value.searched callee = .ok text) ↔ ∃ text, value = .string text := by
  unfold JsValue.searched
  cases value with
  | string text => simp
  | _ => simp [JsValue.member]

theorem ThrownValue.errorMessage_throws_iff (error : ThrownValue) :
    (∃ thrown, error.errorMessage = .error thrown) ↔
      if error.isError then ∀ text, error.message ≠ .string text else error.text = none := by
  unfold ThrownValue.errorMessage
  split
  · have found := error.message.searched_ok_iff "errorMessage"
    cases read : error.message.searched "errorMessage" with
    | ok text =>
        obtain ⟨own, same⟩ := found.mp ⟨text, read⟩
        simp [same]
    | error thrown =>
        simp only [read] at found
        simpa using found
  · cases error.text <;> simp

theorem mapErrorToToolError_of_text {error : ThrownValue} {text : String}
    (plain : error.code.bind acceptedCode = none) (read : error.errorMessage = .ok text) :
    ∃ toolError, mapErrorToToolError error = .ok toolError := by
  unfold mapErrorToToolError
  simp only [plain, read]
  split
  · exact ⟨_, rfl⟩
  · split
    · exact ⟨_, rfl⟩
    · split
      · exact ⟨_, rfl⟩
      · split <;> exact ⟨_, rfl⟩

theorem mapErrorToToolError_throws_iff (error : ThrownValue) :
    (∃ thrown, mapErrorToToolError error = .error thrown) ↔ error.Unmappable := by
  unfold ThrownValue.Unmappable
  cases accepted : error.code.bind acceptedCode with
  | some code => simp [mapErrorToToolError, accepted]
  | none =>
      rw [← error.errorMessage_throws_iff]
      cases read : error.errorMessage with
      | error thrown => simp [mapErrorToToolError, accepted, read]
      | ok text =>
          obtain ⟨toolError, mapped⟩ := mapErrorToToolError_of_text accepted read
          simp [mapped]

end Minerva
