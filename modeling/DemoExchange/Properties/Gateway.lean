import DemoExchange.Properties.Agreement
import DemoExchange.Properties.Line
import DemoExchange.Reference.Answers

/-!
# The engine behind a FIX acceptor

Whatever texts an acceptor reads its requests from, it has a text for every
event that the engine answers them with, and the initiator reads that event.
-/

namespace DemoExchange.Properties
set_option autoImplicit false
open Text Lab OrderEntry MatchingEngine Reference Refinement QuickfixFix MorfixQuickfix Ospec

section Gateway

variable {d : UInt8} {configured : List Symbol} {request : OrderEntry.Request} {requests : List OrderEntry.Request}
  {event : OrderEntry.Event}

/-- The texts of the orders that are asked for fit between delimiters. -/
def Orders (d : UInt8) (requests : List OrderEntry.Request) : Prop :=
  ∀ request ∈ requests, ∀ sent, orderRequest request = some sent →
    Carried d sent.symbol.content ∧ Carried d sent.securityExchange.content

theorem Sendable.order (sendable : Sendable d request) {sent : OrderEntry.NewOrderSingle} (asked : orderRequest request = some sent) :
    Carried d sent.symbol.content ∧ Carried d sent.securityExchange.content := by
  cases request with
  | newOrderSingle request | replaceOrder incoming =>
    cases asked
    exact sendable
  | cancelOrder _ | flush => cases asked

theorem apart_refusals (delimits : Delimits d) : ∀ refusal ∈ refusals, d ∉ ascii refusal.2 := by
  rcases delimits with rfl | rfl <;> decide

/-- **Every answer can be told** over FIX when the orders came with texts that fit. -/
theorem answer_tellable (delimits : Delimits d) (orders : Orders d requests) (answer : Answer configured requests request event) :
    Tellable d event.toMor := by
  cases answer with
  | report execId execType ordStatus origClOrdId lastQty lastPx declared =>
    obtain ⟨request, member, sent, asked, _, terms⟩ := declared
    obtain ⟨symbol, exchange⟩ := orders request member sent asked
    rw [terms]
    exact ⟨symbol, exchange, List.not_mem_nil⟩
  | reject cancel reason text said lost => exact apart_refusals delimits _ said

theorem heard_cancelReject {refused : Mor.CancelReject} (other : refused.rejectReason ≠ .unknownSymbol) :
    heard (.cancelReject refused) = .cancelReject refused := by
  rw [heard, B3.readBack_eq_iff.2 other]

/-- It is heard as it was told, unless a replace named a symbol that is not listed. -/
theorem answer_heard (answer : Answer configured requests request event) :
    heard event.toMor = event.toMor ∨ ∃ incoming, request = .replaceOrder incoming ∧ incoming.symbol ∉ configured := by
  cases answer with
  | report execId execType ordStatus origClOrdId lastQty lastPx declared => exact .inl rfl
  | reject cancel reason text said lost =>
    by_cases unknown : reason = .unknownSymbol
    · exact .inr (lost unknown)
    · exact .inl (heard_cancelReject unknown)

/-- The answers of the engine are those of the exchange, numbered. -/
theorem engine_answers (configuration : EngineConfig) (requests : List OrderEntry.Request) {entry : OrderEntry.Request × List Emission}
    (member : entry ∈ (numberedRun configuration requests).2) (told : Emission.orderEntry event ∈ entry.2) :
    Answer configuration.validSymbols requests entry.1 event := by
  have answers := run_answers configuration requests
  rw [run_unnumbered] at answers
  obtain ⟨answered, same⟩ : ∃ answered, unnumbered (.orderEntry event) = .orderEntry answered := by
    cases event with
    | executionReport told => exact ⟨_, rfl⟩
    | cancelReject refused => exact ⟨_, rfl⟩
  refine Answer.numbered same (answers _ (List.mem_map_of_mem member) answered ?_)
  exact same ▸ List.mem_map_of_mem told

/-- The requests that an acceptor reads have texts that fit. -/
theorem orders_accepted (payloads : List Bytes) : Orders d (payloads.filterMap fun payload => (acceptorRequest d payload).toOption) := by
  intro request member sent asked
  obtain ⟨payload, -, read⟩ := List.mem_filterMap.1 member
  cases accepted : acceptorRequest d payload with
  | error e =>
    rw [accepted] at read
    cases read
  | ok request' =>
    rw [accepted] at read
    cases read
    exact (acceptorRequest_ok accepted).order asked

/-- **Everything can be told.** Whatever bytes come, the acceptor has a text for
every event that the engine answers the accepted requests with, and the
initiator reads from it that event, the reason of a reject but for one case: a
replace that names a symbol that is not listed. -/
theorem gateway_tells (delimits : Delimits d) (alloc : Pool.Allocator) (configuration : EngineConfig) (payloads : List Bytes) :
    ∃ e trace,
      Engine.run alloc configuration (payloads.filterMap fun payload => (acceptorRequest d payload).toOption) = .ok (e, trace) ∧
        ∀ entry ∈ trace, ∀ event, Emission.orderEntry event ∈ entry.2 →
          ∃ payload, acceptorPayload d event.toMor = some payload ∧ initiatorEvent d payload = .ok (heard event.toMor) ∧
            (heard event.toMor = event.toMor ∨
              ∃ incoming, entry.1 = .replaceOrder incoming ∧ incoming.symbol ∉ configuration.validSymbols) := by
  obtain ⟨e, ran, -⟩ := engine_run alloc configuration (payloads.filterMap fun payload => (acceptorRequest d payload).toOption)
  refine ⟨e, _, ran, fun entry member event told => ?_⟩
  have answer := engine_answers configuration _ member told
  obtain ⟨payload, sent, read⟩ := (answer_tellable delimits (orders_accepted payloads) answer).reaches delimits
  exact ⟨payload, sent, read, answer_heard answer⟩

end Gateway

section Witness

def orderLine : Bytes := ascii "35=D|1=1|11=1|48=1|55=AAPL|207=BVMF|54=1|40=2|59=0|38=100|44=10|"

/-- A replacement with a symbol that is not listed. -/
def replaceLine : Bytes := ascii "35=G|1=1|11=2|41=1|48=1|55=MSFT|207=BVMF|54=1|40=2|59=0|38=100|44=11|"

def fixLines : List Bytes := [orderLine, ascii "noise", replaceLine]

theorem orderLine_read :
    (acceptorRequest printableDelimiter orderLine).toOption = some (.newOrderSingle (makeNewOrderSingle alice 1 .buy 10)) := by
  rw [acceptorRequest, QuickfixFix.decode, decodeLoop_records]
  decide +kernel

theorem noise_read : (acceptorRequest printableDelimiter (ascii "noise")).toOption = none := by
  rw [acceptorRequest, QuickfixFix.decode, decodeLoop_records]
  decide +kernel

theorem replaceLine_read :
    (acceptorRequest printableDelimiter replaceLine).toOption = some (.replaceOrder (makeReplaceOrder alice 2 1 msft 11)) := by
  rw [acceptorRequest, QuickfixFix.decode, decodeLoop_records]
  decide +kernel

theorem fixLines_read : fixLines.filterMap (fun payload => (acceptorRequest printableDelimiter payload).toOption) =
    [.newOrderSingle (makeNewOrderSingle alice 1 .buy 10), .replaceOrder (makeReplaceOrder alice 2 1 msft 11)] := by
  simp only [fixLines, List.filterMap_cons, orderLine_read, noise_read, replaceLine_read, List.filterMap_nil]

/-- She is told of the unknown symbol, and hears of an unknown order. -/
theorem gateway_tells_fixLines :
    ∃ e trace,
      Engine.run .above defaultConfig (fixLines.filterMap fun payload => (acceptorRequest printableDelimiter payload).toOption) =
        .ok (e, trace) ∧
      ∃ entry ∈ trace, Emission.orderEntry (.cancelReject ⟨alice, 2, 1, .unknownSymbol, "unknown symbol", 0⟩) ∈ entry.2 ∧
        ∃ payload,
          acceptorPayload printableDelimiter (.cancelReject ⟨alice, 2, 1, .unknownSymbol, ascii "unknown symbol", 0⟩) = some payload ∧
          initiatorEvent printableDelimiter payload = .ok (.cancelReject ⟨alice, 2, 1, .unknownOrder, ascii "unknown symbol", 0⟩) := by
  obtain ⟨e, trace, ran, tells⟩ := gateway_tells (.inr rfl) .above defaultConfig fixLines
  have told : (Engine.run .above defaultConfig
      [.newOrderSingle (makeNewOrderSingle alice 1 .buy 10), .replaceOrder (makeReplaceOrder alice 2 1 msft 11)]).map
        (fun out => out.2.map fun entry => decide
          (Emission.orderEntry (.cancelReject ⟨alice, 2, 1, .unknownSymbol, "unknown symbol", 0⟩) ∈ entry.2)) = .ok [false, true] := by
    decide
  rw [← fixLines_read, ran] at told
  replace told := Except.ok.inj told
  obtain ⟨entry, member, inside⟩ := List.mem_map.1 (told.symm ▸ List.mem_cons_of_mem false (List.mem_singleton_self true))
  have inside := of_decide_eq_true inside
  obtain ⟨payload, sent, read, -⟩ := tells entry member _ inside
  exact ⟨e, trace, ran, entry, member, inside, payload, sent, read⟩

end Witness

end DemoExchange.Properties
