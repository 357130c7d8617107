import Mathlib.Data.List.Basic

namespace UrlPulse.Web.CurrentUserService

/-! Who a request is made for.  Any authenticated principal comes through, with
whatever claims its token carries. -/

structure Claim where
  type : String
  value : String
deriving DecidableEq, Repr

abbrev ClaimsPrincipal := List Claim

def objectIdentifier : String := "http://schemas.microsoft.com/identity/claims/objectidentifier"

/-- `StringComparison.OrdinalIgnoreCase` with an ASCII text, as the claim types are: the
upper case of no other character is in ASCII. -/
def equalsIgnoreCase (left right : String) : Bool :=
  left.toList.map Char.toUpper = right.toList.map Char.toUpper

/-- `FindFirst` compares claim types without their case. -/
def findFirstValue (principal : ClaimsPrincipal) (claimType : String) : Option String :=
  (principal.find? fun claim => equalsIgnoreCase claim.type claimType).map (·.value)

def userId (principal : ClaimsPrincipal) : Option String :=
  findFirstValue principal objectIdentifier

theorem userId_isSome_iff {principal : ClaimsPrincipal} :
    (userId principal).isSome ↔ ∃ claim ∈ principal, equalsIgnoreCase claim.type objectIdentifier := by
  simp [userId, findFirstValue]

theorem userId_surjective (id : Option String) : ∃ principal, userId principal = id := by
  cases id with
  | none => exact ⟨[], rfl⟩
  | some value => exact ⟨[⟨objectIdentifier, value⟩], by simp [userId, findFirstValue, equalsIgnoreCase]⟩

end UrlPulse.Web.CurrentUserService
