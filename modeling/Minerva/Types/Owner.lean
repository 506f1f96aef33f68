import Minerva.Library.Percent

namespace Minerva

structure OwnerPrincipal where
  tenantId : String
  subjectId : String
  deriving DecidableEq, Repr

def uriUnreserved (c : Char) : Bool :=
  c.isAlphanum || decide (c ∈ ['-', '_', '.', '!', '~', '*', '\'', '(', ')'])

/-- `encodeURIComponent` on well-formed text; a Lean string has no lone surrogate. -/
def encodeURIComponent (text : String) : String :=
  String.ofList (Percent.encode uriUnreserved text.toList)

def ownerKeyFromPrincipal (owner : OwnerPrincipal) : String :=
  if owner.tenantId = "legacy" then owner.subjectId
  else encodeURIComponent owner.tenantId ++ ":" ++ encodeURIComponent owner.subjectId

def sameOwnerPrincipal (left right : OwnerPrincipal) : Bool :=
  decide (left.tenantId = right.tenantId) && decide (left.subjectId = right.subjectId)

def legacyOwnerPrincipalFromUserId (userId : String) : OwnerPrincipal :=
  { tenantId := "legacy", subjectId := userId }

theorem sameOwnerPrincipal_iff (left right : OwnerPrincipal) :
    sameOwnerPrincipal left right = true ↔ left = right := by
  cases left
  cases right
  simp [sameOwnerPrincipal]

theorem encodeURIComponent_injective (left right : String)
    (same : encodeURIComponent left = encodeURIComponent right) : left = right := by
  have encoded := String.ofList_inj.mp same
  exact String.toList_inj.mp (Percent.encode_injective (by decide) _ _ encoded)

theorem colon_not_encoded (text : String) : ':' ∉ (encodeURIComponent text).toList := by
  rw [encodeURIComponent, String.toList_ofList]
  have noDigit : ∀ n : Fin 16, ':' ≠ Percent.hexDigit n := by decide
  exact Percent.not_mem_encode ':' (by decide) (by decide) (fun n small => noDigit ⟨n, small⟩) _

/-- The first colon of an encoded key ends the tenant, so the pair can be read back. -/
theorem encoded_key_injective (tenant subject tenant' subject' : String)
    (same : encodeURIComponent tenant ++ ":" ++ encodeURIComponent subject =
      encodeURIComponent tenant' ++ ":" ++ encodeURIComponent subject') :
    tenant = tenant' ∧ subject = subject' := by
  have chars : (encodeURIComponent tenant).toList ++ ':' :: (encodeURIComponent subject).toList =
      (encodeURIComponent tenant').toList ++ ':' :: (encodeURIComponent subject').toList := by
    simpa using congrArg String.toList same
  obtain ⟨tenants, -, subjects⟩ := (List.append_cons_inj_of_notMem
    (colon_not_encoded tenant) (colon_not_encoded subject)).mp chars
  have left : encodeURIComponent tenant = encodeURIComponent tenant' := String.toList_inj.mp tenants
  have right : encodeURIComponent subject = encodeURIComponent subject' :=
    String.toList_inj.mp subjects
  exact ⟨encodeURIComponent_injective _ _ left, encodeURIComponent_injective _ _ right⟩

/-- The raw subject of the legacy principal `legacy` reads as the encoded key of `other`. -/
def LegacyCollision (legacy other : OwnerPrincipal) : Prop :=
  legacy.tenantId = "legacy" ∧ other.tenantId ≠ "legacy" ∧
    legacy.subjectId = encodeURIComponent other.tenantId ++ ":" ++ encodeURIComponent other.subjectId

instance (legacy other : OwnerPrincipal) : Decidable (LegacyCollision legacy other) :=
  inferInstanceAs (Decidable (_ ∧ _ ∧ _))

theorem ownerKey_eq_iff (a b : OwnerPrincipal) :
    ownerKeyFromPrincipal a = ownerKeyFromPrincipal b ↔
      a = b ∨ LegacyCollision a b ∨ LegacyCollision b a := by
  obtain ⟨tenant, subject⟩ := a
  obtain ⟨tenant', subject'⟩ := b
  simp only [ownerKeyFromPrincipal, LegacyCollision, OwnerPrincipal.mk.injEq]
  by_cases left : tenant = "legacy" <;> by_cases right : tenant' = "legacy"
  · subst left
    subst right
    simp
  · subst left
    simp [right, Ne.symm right]
  · subst right
    simp [left, eq_comm]
  · simp only [left, right, if_false, false_and, or_false]
    constructor
    · exact encoded_key_injective tenant subject tenant' subject'
    · rintro ⟨rfl, rfl⟩
      rfl

theorem collision_distinct (a b : OwnerPrincipal) (collides : LegacyCollision a b) : a ≠ b := by
  rintro rfl
  exact collides.2.1 collides.1

theorem ownerKey_separates_iff (a b : OwnerPrincipal) :
    (ownerKeyFromPrincipal a = ownerKeyFromPrincipal b → sameOwnerPrincipal a b = true) ↔
      ¬LegacyCollision a b ∧ ¬LegacyCollision b a := by
  rw [ownerKey_eq_iff, sameOwnerPrincipal_iff]
  constructor
  · intro separated
    constructor
    · intro collides
      exact collision_distinct a b collides (separated (.inr (.inl collides)))
    · intro collides
      exact collision_distinct b a collides (separated (.inr (.inr collides))).symm
  · rintro ⟨first, second⟩ (same | collides | collides)
    · exact same
    · exact absurd collides first
    · exact absurd collides second

end Minerva
