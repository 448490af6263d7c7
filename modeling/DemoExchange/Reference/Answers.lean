import DemoExchange.Reference.Terms

/-!
# What the exchange answers

Every report is of an order that some request declared, and every reject is one
of three. `Answer` lists what a step can say to a client.
-/

namespace DemoExchange.Reference
set_option autoImplicit false
open OrderEntry MatchingEngine

/-- A reason and the text that goes with it. -/
def refusals : List (RejectReason × String) :=
  [(.unknownOrder, "unknown order"), (.duplicateOrder, "duplicate cl_ord_id"), (.unknownSymbol, "unknown symbol")]

/-- What an exchange with these symbols may answer to one of the requests. -/
inductive Answer (configured : List Symbol) (requests : List Request) (request : Request) : Event → Prop where
  | report {order : OrderState} (execId : ExecId) (execType : ExecType) (ordStatus : OrdStatus) (origClOrdId : Option OrigClOrdId)
      (lastQty : Option Quantity) (lastPx : Option Price) (declared : Declared requests order) :
      Answer configured requests request
        (.executionReport { reportOf order execType ordStatus origClOrdId lastQty lastPx with execId := execId })
  | reject (cancel : CancelOrder) (reason : RejectReason) (text : String) (said : (reason, text) ∈ refusals)
      (lost : reason = .unknownSymbol → ∃ incoming, request = .replaceOrder incoming ∧ incoming.symbol ∉ configured) :
      Answer configured requests request (.cancelReject (rejectOf cancel reason text))

section Step

variable {x : Exchange} {request : Request} {requests : List Request} {event : Event}

theorem removalUpdate_answer {o : LiveOrder} : Emission.orderEntry event ∉ x.removalUpdate o := by
  intro member
  obtain ⟨_, same⟩ := mem_removalUpdate member
  cases same

/-- **The rejects of a step.** -/
theorem step_rejects {refused : CancelReject} (member : Emission.orderEntry (.cancelReject refused) ∈ (x.step request).2) :
    ∃ cancel reason text, refused = rejectOf cancel reason text ∧ (reason, text) ∈ refusals ∧
      (reason = .unknownSymbol → ∃ incoming, request = .replaceOrder incoming ∧ incoming.symbol ∉ x.configured) := by
  have accepted : ∀ {x' : Exchange} {sent}, Emission.orderEntry (.cancelReject refused) ∉ (x'.accept sent).2 := by
    intro x' sent member
    obtain ⟨_, _, _, _, _, same⟩ | ⟨_, _, same⟩ | ⟨_, same⟩ := mem_accept member <;> cases same
  cases request with
  | newOrderSingle request =>
    simp only [Exchange.step, Exchange.newOrderSingle] at member
    split at member
    · cases member
    · split at member
      · exact absurd member accepted
      · cases member
  | replaceOrder incoming =>
    simp only [Exchange.step, Exchange.replaceOrder] at member
    split at member
    · cases List.mem_singleton.1 member
      exact ⟨_, _, _, rfl, by decide, fun other => absurd other (by decide)⟩
    · split at member
      · cases List.mem_singleton.1 member
        exact ⟨_, _, _, rfl, by decide, fun other => absurd other (by decide)⟩
      · split at member
        · rcases List.mem_append.1 member with member | member
          · exact absurd member removalUpdate_answer
          · exact absurd member accepted
        · rename_i unlisted
          rcases List.mem_append.1 member with member | member
          · exact absurd member removalUpdate_answer
          · cases List.mem_singleton.1 member
            exact ⟨_, _, _, rfl, by decide, fun _ => ⟨incoming, rfl, unlisted⟩⟩
  | cancelOrder incoming =>
    simp only [Exchange.step, Exchange.cancelOrder] at member
    split at member
    · cases List.mem_singleton.1 member
      exact ⟨_, _, _, rfl, by decide, fun other => absurd other (by decide)⟩
    · rcases List.mem_cons.1 member with same | member
      · cases same
      · exact absurd member removalUpdate_answer
  | flush => cases member

/-- **The reports of a step** are of live orders and of the order it was asked for. -/
theorem step_reports {told : ExecutionReport} (member : Emission.orderEntry (.executionReport told) ∈ (x.step request).2) :
    ∃ order execType ordStatus origClOrdId lastQty lastPx,
      told = reportOf order execType ordStatus origClOrdId lastQty lastPx ∧
        ((∃ o ∈ x.live, o.order = order) ∨ Declared [request] order) := by
  have accepted : ∀ {x' : Exchange} {sent}, orderRequest request = some sent →
      Emission.orderEntry (.executionReport told) ∈ (x'.accept sent).2 →
        ∃ order execType ordStatus origClOrdId lastQty lastPx,
          told = reportOf order execType ordStatus origClOrdId lastQty lastPx ∧
            ((∃ o ∈ x.live, o.order = order) ∨ Declared [request] order) := by
    intro x' sent asked member
    have declared : ∀ {order}, Reduces (orderFor sent) order → Declared [request] order :=
      fun terms => ⟨request, List.mem_singleton_self _, sent, asked, terms⟩
    obtain same | ⟨_, _, same⟩ | member | ⟨_, same⟩ := accept_events member
    · cases same
      exact ⟨_, _, _, _, _, _, rfl, .inr (declared (Reduces.refl _))⟩
    · cases same
    · obtain ⟨_, same⟩ | ⟨_, _, _, same⟩ := mem_tradeReports member
      · cases same
      · cases same
        exact ⟨_, _, _, _, _, _, rfl, .inr (declared (sweep_taker _ _))⟩
    · cases same
  have outcome := step_outcome x request
  generalize x.step request = next at outcome member
  cases outcome with
  | refused request events rejects =>
    obtain ⟨_, _, _, same⟩ := rejects _ member
    cases same
  | accepted request => exact accepted rfl member
  | cancelled incoming o inside =>
    rcases List.mem_cons.1 member with same | member
    · cases same
      exact ⟨_, _, _, _, _, _, rfl, .inl ⟨o, inside, rfl⟩⟩
    · exact absurd member removalUpdate_answer
  | replaced incoming =>
    rcases List.mem_append.1 member with member | member
    · exact absurd member removalUpdate_answer
    · exact accepted rfl member
  | lost =>
    rcases List.mem_append.1 member with member | member
    · exact absurd member removalUpdate_answer
    · cases List.mem_singleton.1 member
  | flushed => cases member

theorem step_declared (declared : ∀ o ∈ x.live, Declared requests o.order) :
    ∀ o ∈ (x.step request).1.live, Declared (requests ++ [request]) o.order := by
  intro o ho
  obtain ⟨o', inside, terms⟩ | asked := step_live ho
  · exact ((declared o' inside).reduces terms).mono (List.subset_append_left _ _)
  · exact asked.mono (List.subset_append_right _ _)

theorem step_answers (declared : ∀ o ∈ x.live, Declared requests o.order) (member : Emission.orderEntry event ∈ (x.step request).2) :
    Answer x.configured (requests ++ [request]) request event := by
  cases event with
  | executionReport told =>
    obtain ⟨order, execType, ordStatus, origClOrdId, lastQty, lastPx, rfl, ⟨o, inside, rfl⟩ | asked⟩ := step_reports member
    · exact .report _ _ _ _ _ _ ((declared o inside).mono (List.subset_append_left _ _))
    · exact .report _ _ _ _ _ _ (asked.mono (List.subset_append_right _ _))
  | cancelReject refused =>
    obtain ⟨cancel, reason, text, rfl, said, lost⟩ := step_rejects member
    exact .reject _ _ _ said lost

end Step

section Runs

variable {configured : List Symbol} {request : Request} {requests requests' : List Request} {event : Event}

theorem Answer.mono (answer : Answer configured requests request event) (more : requests ⊆ requests') :
    Answer configured requests' request event := by
  cases answer with
  | report execId execType ordStatus origClOrdId lastQty lastPx declared => exact .report _ _ _ _ _ _ (declared.mono more)
  | reject cancel reason text said lost => exact .reject _ _ _ said lost

/-- An answer keeps its meaning when it is numbered. -/
theorem Answer.numbered {answered : Event} (same : unnumbered (.orderEntry event) = .orderEntry answered)
    (answer : Answer configured requests request answered) : Answer configured requests request event := by
  cases event with
  | cancelReject refused =>
    cases same
    exact answer
  | executionReport told =>
    cases same
    generalize zeroed : ({ told with execId := 0 } : ExecutionReport) = report at answer
    cases answer with
    | report execId execType ordStatus origClOrdId lastQty lastPx declared =>
      have back : told = { reportOf _ execType ordStatus origClOrdId lastQty lastPx with execId := told.execId } :=
        congrArg (fun report : ExecutionReport => { report with execId := told.execId }) zeroed
      rw [back]
      exact .report _ _ _ _ _ _ declared

theorem run_answers (configuration : EngineConfig) (requests : List Request) :
    ∀ entry ∈ (run configuration requests).2, ∀ event, Emission.orderEntry event ∈ entry.2 →
      Answer configuration.validSymbols requests entry.1 event := by
  have start : ∀ o ∈ (Exchange.init configuration).live, Declared [] o.order := fun o ho => absurd ho List.not_mem_nil
  have answers := Run.drive_rule (f := Exchange.step) (a := Exchange.init configuration)
    (P := fun x trace => x.configured = configuration.validSymbols ∧ (∀ o ∈ x.live, Declared (trace.map Prod.fst) o.order) ∧
      ∀ entry ∈ trace, ∀ event, Emission.orderEntry event ∈ entry.2 →
        Answer configuration.validSymbols (trace.map Prod.fst) entry.1 event)
    (Q := fun _ => True) ⟨rfl, start, fun entry member => absurd member List.not_mem_nil⟩ ?_ requests fun _ _ => trivial
  · rw [Run.drive_inputs] at answers
    exact answers.2.2
  · rintro x trace request ⟨configured, declared, before⟩ _
    rw [List.map_append]
    refine ⟨(step_configured x request).trans configured, step_declared declared, fun entry member event told => ?_⟩
    · rcases List.mem_append.1 member with member | member
      · exact (before entry member event told).mono (List.subset_append_left _ _)
      · rw [List.mem_singleton.1 member] at told ⊢
        exact configured ▸ step_answers declared told

end Runs

end DemoExchange.Reference
