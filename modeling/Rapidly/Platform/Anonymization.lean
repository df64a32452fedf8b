import Mathlib.Data.Nat.Notation

/-!
# Anonymisation

`core/anonymization.py`. The digest is a parameter; nothing is assumed of it here.
-/

namespace Rapidly.Platform

variable (sha256 : String → String)

/-- `_ANON_EMAIL_DOMAIN`. -/
def anonEmailDomain : String := "redacted.invalid"

/-- `anonymize_email_for_deletion`; `none` where the assertion fails. -/
def anonymizeEmailForDeletion (email : String) : Option String :=
  if '@' ∈ email.toList then some (sha256 email ++ "@" ++ anonEmailDomain) else none

theorem anonymizeEmailForDeletion_eq_some (sha256 : String → String) {email : String}
    (h : '@' ∈ email.toList) :
    anonymizeEmailForDeletion sha256 email = some (sha256 email ++ "@" ++ anonEmailDomain) :=
  if_pos h

/-- A Python value that counts as true: an optional column that is neither null nor empty. -/
def truthy (value : Option String) : Bool := value.any (· ≠ "")

end Rapidly.Platform
