import DemoExchange.MorfixQuickfix.Codecs
import DemoExchange.QuickfixFix.Codec

/-!
# The two ends of a FIX line

The layers of `docs/adr/0005-layer-codecs-behind-normalized-routing-and-market-data-domains.md`
one after the other: normalized record, FIX-shaped record, FIX message, text.
A record without a FIX message is not sent.
-/

namespace DemoExchange.MorfixQuickfix
set_option autoImplicit false
open Text Lab

variable (delimiter : UInt8)

/-- The text that an initiator sends for a request. -/
def initiatorPayload (request : OrderEntry.Request) : Option Bytes := do
  let fix ← request.toMor.toFix
  let message ← (Initiator.encode fix).toOption
  return QuickfixFix.encode message delimiter

/-- The request that an acceptor reads. -/
def acceptorRequest (payload : Bytes) : Result OrderEntry.Request := do
  let message ← QuickfixFix.decode payload delimiter
  let fix ← Acceptor.decode message
  return fix.toMor.toOrderEntry

/-- The text that an acceptor sends for an event. -/
def acceptorPayload (event : Mor.Event) : Option Bytes := do
  let fix ← event.toFix
  let message ← (Acceptor.encode fix).toOption
  return QuickfixFix.encode message delimiter

/-- The event that an initiator reads. -/
def initiatorEvent (payload : Bytes) : Result Mor.Event := do
  let message ← QuickfixFix.decode payload delimiter
  let fix ← Initiator.decode message
  return fix.toMor

end DemoExchange.MorfixQuickfix
