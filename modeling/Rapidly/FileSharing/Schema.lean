import Rapidly.Identity.Schema

/-!
# The tables of file sharing

The rows of `models/` behind shares and their payments. A row has the columns some modelled
function reads.
-/

namespace Rapidly.FileSharing

open Identity

/-- `FileShareSessionStatus`. -/
inductive FileShareSessionStatus where
  | created
  | active
  | completed
  | expired
  | destroyed
  | reported
deriving DecidableEq

/-- The audit row of a channel. -/
structure FileShareSession where
  id : Uuid
  shortSlug : String
  workspaceId : Option Uuid := none
  status : FileShareSessionStatus := .created
  downloadCount : ℤ := 0
  priceCents : Option ℤ := none
  currency : String := "usd"
  fileSizeBytes : Option ℤ := none
  createdAt : Time := 0
  deletedAt : Option Time := none
deriving DecidableEq

/-- `FileSharePaymentStatus`. -/
inductive FileSharePaymentStatus where
  | pending
  | completed
  | refunded
  | failed
deriving DecidableEq

/-- A payment for a channel. -/
structure FileSharePayment where
  id : Uuid
  sessionId : Uuid
  status : FileSharePaymentStatus := .pending
  amountCents : ℤ
  currency : String := "usd"
  platformFeeCents : ℤ := 0
  stripeCheckoutSessionId : Option String := none
  stripePaymentIntentId : Option String := none
  buyerEmail : Option String := none
  buyerName : Option String := none
  customerId : Option Uuid := none
  /-- The charge in the table of all payments. -/
  paymentId : Option Uuid := none
  paymentMethodId : Option Uuid := none
deriving DecidableEq

/-- A saved card. -/
structure PaymentMethod where
  id : Uuid
  customerId : Uuid
  /-- Stripe's identifier of the card. -/
  processorId : String
  deletedAt : Option Time := none
deriving DecidableEq

end Rapidly.FileSharing
