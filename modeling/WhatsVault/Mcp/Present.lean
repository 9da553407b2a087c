import WhatsVault.Platform
import WhatsVault.Vault.Schema

/-!
# Presentation

What a read hands out of a message and of a contact: texts from outside in the untrusted wrapper, a
phone number as its last four digits, a wamid as an opaque handle.
-/

namespace WhatsVault.Mcp

/-- `{"_wv_untrusted": True, "text": text}`. -/
structure Untrusted where
  text : String
  deriving DecidableEq

structure ContactRef where
  contactId : String
  displayName : Option Untrusted
  pushName : Option Untrusted
  waTail : Option String
  deriving DecidableEq

structure MessageView where
  messageId : String
  conversationId : String
  direction : String
  tsLowerMs : ℤ
  tsUpperMsExclusive : ℤ
  tsPrecision : String
  deliveryRank : ℕ
  replyToRef : Option String
  body : Option Untrusted
  contact : Option ContactRef
  deriving DecidableEq

/-- `value` where `if not value` does not hold. -/
def nonempty (value : Option String) : Option String := value.filter fun s => s ≠ ""

def untrusted (text : Option String) : Option Untrusted := text.map Untrusted.mk

/-- `mask_wa_id`; `isDigit` is `str.isdigit` of a character. -/
def maskWaId (isDigit : Char → Bool) (waId : Option String) : Option String :=
  (nonempty waId).map fun s =>
    let digits := s.toList.filter isDigit
    "••••" ++ String.ofList (digits.drop (digits.length - 4))

def opaqueRef (P : Platform) (value : Option String) : Option String :=
  (nonempty value).map fun s => "wref_" ++ String.ofList ((P.hexdigest (utf8 s)).toList.take 16)

def contactRef (isDigit : Char → Bool) (row : Contact) : ContactRef where
  contactId := row.id
  displayName := untrusted row.displayName
  pushName := untrusted row.pushName
  waTail := maskWaId isDigit row.waId

def messageView (P : Platform) (isDigit : Char → Bool) (m : Message) (contact : Option Contact) :
    MessageView where
  messageId := m.id
  conversationId := m.conversationId
  direction := m.direction.name
  tsLowerMs := m.tsLowerMs
  tsUpperMsExclusive := m.tsUpperMsExclusive
  tsPrecision := m.tsPrecision.name
  deliveryRank := m.deliveryRank
  replyToRef := opaqueRef P m.replyToWamid
  body := untrusted m.textOriginal
  contact := contact.map (contactRef isDigit)

end WhatsVault.Mcp
