import Minerva.Library.Utf8
import Minerva.Runtime.RunExecution

namespace Minerva

/-- A header as Node hands it over: its text, or the texts of a repeated header. -/
inductive HeaderValue where
  | single (text : String)
  | repeated (texts : List String)
  deriving DecidableEq

/-- The headers of a request; Node writes their names in lower case. -/
abbrev IncomingHttpHeaders := EsMap String HeaderValue

structure GatewayConfig where
  proofHeader : String
  proofSecret : String
  tenantIdHeader : String
  subjectIdHeader : String

/-- `toLowerCase` follows the case tables of the host, whatever they say of a configured name. -/
structure GatewayAuthService where
  config : GatewayConfig
  toLowerCase : String → String

namespace GatewayAuthService

/-- The error carries the message of the `UnauthorizedException`. -/
def readRequiredHeader (auth : GatewayAuthService) (headers : IncomingHttpHeaders)
    (headerName description : String) : Except String String :=
  match headers.get (auth.toLowerCase headerName) with
  | some (.repeated _) => .error ("Expected a single " ++ description ++ " header")
  | some (.single rawValue) =>
    let value := jsTrim rawValue
    if value = "" then .error ("Missing " ++ description) else .ok value
  | none => .error ("Missing " ++ description)

def timingSafeEqual (actual expected : List UInt8) : Bool := decide (actual = expected)

def isExpectedProof (auth : GatewayAuthService) (value : String) : Bool :=
  let actual := Utf8.encode value.toList
  let expected := Utf8.encode auth.config.proofSecret.toList
  if actual.length ≠ expected.length then false else timingSafeEqual actual expected

def authenticate (auth : GatewayAuthService) (headers : IncomingHttpHeaders) :
    Except String OwnerPrincipal := do
  let proof ← auth.readRequiredHeader headers auth.config.proofHeader "gateway proof"
  if auth.isExpectedProof proof then
    let tenantId ← auth.readRequiredHeader headers auth.config.tenantIdHeader "tenant identity"
    let subjectId ← auth.readRequiredHeader headers auth.config.subjectIdHeader "subject identity"
    .ok { tenantId, subjectId }
  else .error "Invalid gateway proof"

variable {auth : GatewayAuthService} {headers : IncomingHttpHeaders}

theorem readRequiredHeader_eq_ok {headerName description value : String} :
    auth.readRequiredHeader headers headerName description = .ok value ↔
      ∃ rawValue, headers.get (auth.toLowerCase headerName) = some (.single rawValue) ∧
        value = jsTrim rawValue ∧ value ≠ "" := by
  unfold readRequiredHeader
  cases headers.get (auth.toLowerCase headerName) with
  | none => simp
  | some header =>
      cases header with
      | repeated texts => simp
      | single rawValue =>
          by_cases empty : jsTrim rawValue = ""
          · simp [empty]
          · simp only [if_neg empty, Except.ok.injEq, Option.some.injEq, HeaderValue.single.injEq]
            constructor
            · rintro rfl
              exact ⟨rawValue, rfl, rfl, empty⟩
            · rintro ⟨_, rfl, rfl, -⟩
              rfl

/-- The bytes of the proof are compared, and UTF-8 keeps texts apart. -/
theorem isExpectedProof_iff (value : String) :
    auth.isExpectedProof value = true ↔ value = auth.config.proofSecret := by
  have bytes : Utf8.encode value.toList = Utf8.encode auth.config.proofSecret.toList ↔
      value = auth.config.proofSecret := by
    constructor
    · intro same
      have decoded := congrArg Utf8.decode same
      rw [Utf8.decode_encode, Utf8.decode_encode] at decoded
      exact String.toList_inj.mp decoded
    · rintro rfl
      rfl
  unfold isExpectedProof timingSafeEqual
  dsimp only
  split
  · rename_i longer
    simp only [Bool.false_eq_true, false_iff]
    rintro rfl
    exact longer rfl
  · rw [decide_eq_true_iff, bytes]

theorem authenticate_eq_ok (owner : OwnerPrincipal) :
    auth.authenticate headers = .ok owner ↔
      auth.readRequiredHeader headers auth.config.proofHeader "gateway proof" =
          .ok auth.config.proofSecret ∧
        auth.readRequiredHeader headers auth.config.tenantIdHeader "tenant identity" =
          .ok owner.tenantId ∧
        auth.readRequiredHeader headers auth.config.subjectIdHeader "subject identity" =
          .ok owner.subjectId := by
  obtain ⟨tenantId, subjectId⟩ := owner
  unfold authenticate
  cases auth.readRequiredHeader headers auth.config.proofHeader "gateway proof" with
  | error message => simp [bind, Except.bind]
  | ok proof =>
      simp only [bind, Except.bind, isExpectedProof_iff]
      by_cases expected : proof = auth.config.proofSecret
      · rw [if_pos expected, expected]
        cases auth.readRequiredHeader headers auth.config.tenantIdHeader "tenant identity" with
        | error message => simp
        | ok tenant =>
            cases
              auth.readRequiredHeader headers auth.config.subjectIdHeader "subject identity" with
            | error message => simp
            | ok subject => simp
      · rw [if_neg expected]
        simp [expected]

def vouching (auth : GatewayAuthService) (owner : OwnerPrincipal) : IncomingHttpHeaders :=
  ((EsMap.empty.set (auth.toLowerCase auth.config.tenantIdHeader) (.single owner.tenantId)).set
    (auth.toLowerCase auth.config.subjectIdHeader) (.single owner.subjectId)).set
    (auth.toLowerCase auth.config.proofHeader) (.single auth.config.proofSecret)

/-- Headers that are one header have one value. -/
structure Consistent (auth : GatewayAuthService) (owner : OwnerPrincipal) : Prop where
  identities :
    auth.toLowerCase auth.config.tenantIdHeader = auth.toLowerCase auth.config.subjectIdHeader →
      owner.tenantId = owner.subjectId
  tenant :
    auth.toLowerCase auth.config.tenantIdHeader = auth.toLowerCase auth.config.proofHeader →
      owner.tenantId = auth.config.proofSecret
  subject :
    auth.toLowerCase auth.config.subjectIdHeader = auth.toLowerCase auth.config.proofHeader →
      owner.subjectId = auth.config.proofSecret

theorem get_vouching {owner : OwnerPrincipal} (consistent : auth.Consistent owner) :
    (auth.vouching owner).get (auth.toLowerCase auth.config.proofHeader) =
        some (.single auth.config.proofSecret) ∧
      (auth.vouching owner).get (auth.toLowerCase auth.config.tenantIdHeader) =
        some (.single owner.tenantId) ∧
      (auth.vouching owner).get (auth.toLowerCase auth.config.subjectIdHeader) =
        some (.single owner.subjectId) := by
  refine ⟨EsMap.get_set_self _ _ _, ?_, ?_⟩
  · rw [vouching, EsMap.get_set, EsMap.get_set, EsMap.get_set_self]
    split
    · rename_i same
      rw [consistent.tenant same]
    · split
      · rename_i same
        rw [consistent.identities same]
      · rfl
  · rw [vouching, EsMap.get_set, EsMap.get_set_self]
    split
    · rename_i same
      rw [consistent.subject same]
    · rfl

/-- A text that is read from a header: it is not empty and has no white space at an end. -/
def Plain (text : String) : Prop := text ≠ "" ∧ jsTrim text = text

theorem plain_of_read {headerName description value : String}
    (read : auth.readRequiredHeader headers headerName description = .ok value) : Plain value := by
  obtain ⟨rawValue, -, rfl, some_text⟩ := readRequiredHeader_eq_ok.mp read
  exact ⟨some_text, jsTrim_jsTrim rawValue⟩

theorem read_unique {name name' description description' value value' : String}
    (read : auth.readRequiredHeader headers name description = .ok value)
    (read' : auth.readRequiredHeader headers name' description' = .ok value')
    (same : auth.toLowerCase name = auth.toLowerCase name') : value = value' := by
  obtain ⟨rawValue, got, rfl, -⟩ := readRequiredHeader_eq_ok.mp read
  obtain ⟨rawValue', got', rfl, -⟩ := readRequiredHeader_eq_ok.mp read'
  rw [same, got'] at got
  cases got
  rfl

/-- The principals that the gateway can vouch for at all. The secret is compared with a text that
has been trimmed but is not trimmed itself: with white space at an end it lets nobody in. -/
theorem vouches_iff (auth : GatewayAuthService) (owner : OwnerPrincipal) :
    (∃ headers, auth.authenticate headers = .ok owner) ↔
      Plain auth.config.proofSecret ∧ Plain owner.tenantId ∧ Plain owner.subjectId ∧
        auth.Consistent owner := by
  constructor
  · rintro ⟨headers, admitted⟩
    obtain ⟨proof, tenant, subject⟩ := (authenticate_eq_ok owner).mp admitted
    exact ⟨plain_of_read proof, plain_of_read tenant, plain_of_read subject,
      read_unique tenant subject, read_unique tenant proof, read_unique subject proof⟩
  · rintro ⟨secret, tenant, subject, consistent⟩
    obtain ⟨got_proof, got_tenant, got_subject⟩ := get_vouching consistent
    refine ⟨auth.vouching owner, (authenticate_eq_ok owner).mpr ⟨?_, ?_, ?_⟩⟩
    · exact readRequiredHeader_eq_ok.mpr ⟨_, got_proof, secret.2.symm, secret.1⟩
    · exact readRequiredHeader_eq_ok.mpr ⟨_, got_tenant, tenant.2.symm, tenant.1⟩
    · exact readRequiredHeader_eq_ok.mpr ⟨_, got_subject, subject.2.symm, subject.1⟩

end GatewayAuthService

end Minerva
