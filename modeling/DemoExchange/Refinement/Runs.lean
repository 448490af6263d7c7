import DemoExchange.Refinement.Requests

/-!
# Every run of the engine is a run of the exchange

A new engine represents an exchange with no live order, `send` answers each
request as the exchange does, and so, by the simulation rule, a run of the
engine never faults, emits the numbered events of the exchange and ends
representing it.
-/

namespace DemoExchange.Refinement
set_option autoImplicit false
open OrderEntry MatchingEngine Reference Pool

section NewEngine

theorem mem_openBook {books : List (Symbol × OrderBook)} {symbol s : Symbol} :
    s ∈ (Engine.openBook books symbol).map Prod.fst ↔ s ∈ books.map Prod.fst ∨ s = symbol := by
  unfold Engine.openBook
  split
  · rename_i present
    constructor
    · exact .inl
    · rintro (member | rfl)
      · exact member
      · exact present
  · simp only [List.map_append, List.map_singleton, List.mem_append, List.mem_singleton]

/-- The books opened by the constructor: one empty book a symbol. -/
theorem openBooks_spec (symbols : List Symbol) : ∀ books : List (Symbol × OrderBook),
    (books.map Prod.fst).Nodup → (∀ y ∈ books, y.2 = ⟨[], []⟩) →
    ((symbols.foldl Engine.openBook books).map Prod.fst).Nodup ∧
      (∀ y ∈ symbols.foldl Engine.openBook books, y.2 = ⟨[], []⟩) ∧
      ∀ s, s ∈ (symbols.foldl Engine.openBook books).map Prod.fst ↔ s ∈ books.map Prod.fst ∨ s ∈ symbols := by
  induction symbols with
  | nil =>
    intro books unique empty
    exact ⟨unique, empty, by simp⟩
  | cons symbol symbols ih =>
    intro books unique empty
    have unique' : ((Engine.openBook books symbol).map Prod.fst).Nodup := by
      unfold Engine.openBook
      split
      · exact unique
      · rename_i absent
        rw [List.map_append, List.map_singleton]
        refine List.nodup_append.2 ⟨unique, List.nodup_singleton _, ?_⟩
        rintro s hs s' hs' rfl
        rw [List.mem_singleton.1 hs'] at hs
        exact absent hs
    have empty' : ∀ y ∈ Engine.openBook books symbol, y.2 = ⟨[], []⟩ := by
      unfold Engine.openBook
      split
      · exact empty
      · intro y hy
        rcases List.mem_append.1 hy with hy | hy
        · exact empty y hy
        · rw [List.mem_singleton.1 hy]
    obtain ⟨nodup, opened, keys⟩ := ih _ unique' empty'
    refine ⟨nodup, opened, fun s => ?_⟩
    rw [List.foldl_cons, keys, mem_openBook, List.mem_cons, or_assoc]

/-- The warm-up of the pool leaves no slot live. -/
theorem reserveNodePool_spec (alloc : Allocator) (expected chunk : Nat) :
    Proper (Engine.reserveNodePool alloc expected chunk [.setNextSize chunk]) ∧
      liveSlots (Engine.reserveNodePool alloc expected chunk [.setNextSize chunk]) = [] := by
  unfold Engine.reserveNodePool
  split
  · exact ⟨trivial, rfl⟩
  · refine ⟨⟨List.mem_singleton_self _, List.not_mem_nil, trivial⟩, ?_⟩
    simp [liveSlots]

/-- **A new engine** has no live order. -/
theorem Represents.init (alloc : Allocator) (configuration : EngineConfig) :
    Represents (Engine.init alloc configuration) (Exchange.init configuration) := by
  obtain ⟨unique, empty, keys⟩ := openBooks_spec configuration.validSymbols [] List.nodup_nil (by simp)
  obtain ⟨proper, pool⟩ := reserveNodePool_spec alloc configuration.expectedRestingOrders configuration.nodePoolChunkSize
  refine ⟨[], ⟨proper, pool, by simp [Engine.init], by simp [Engine.init], List.Pairwise.nil⟩, rfl, unique, ?_, ?_,
    by simp [Exchange.init], by simp [Exchange.init]⟩
  · simpa [Engine.init, Exchange.init] using keys
  · intro s b hb side
    refine ⟨[], Buckets.Of.nil _ _, ?_⟩
    rw [show b = ⟨[], []⟩ from empty _ hb]
    cases side <;> rfl

end NewEngine

/-- The engine represents the exchange behind the outbox `s.2`, and that is its outbox. -/
def Behind (e : Engine) (s : Exchange × Outbox) : Prop := Represents e s.1 ∧ e.core.out = s.2

theorem send_refines (alloc : Allocator) (e : Engine) (s : Exchange × Outbox) (request : Request) (h : Behind e s) :
    ∃ e', Engine.send alloc e request = .ok (e', (numberedStep s request).2) ∧ Behind e' (numberedStep s request).1 := by
  obtain ⟨x, out⟩ := s
  obtain ⟨⟨items, h⟩, rfl⟩ := h
  have cleared := h.updateOut fun out => { out with events := [] }
  obtain ⟨e', handled, represents, sent⟩ := handle_spec alloc ⟨items, cleared⟩ request
  have events : e'.core.out = (numberedStep (x, e.core.out) request).1.2 := sent
  refine ⟨e', ?_, represents, events⟩
  simp only [Engine.send, handled, bind, Except.bind, pure, Except.pure, events]
  rfl

/-- **Refinement.** Every run of the engine succeeds, answers each request with
the numbered events of the exchange, and ends in a state of the exchange. -/
theorem engine_run (alloc : Allocator) (configuration : EngineConfig) (requests : List Request) :
    ∃ e, Engine.run alloc configuration requests = .ok (e, (numberedRun configuration requests).2) ∧
      Behind e (numberedRun configuration requests).1 :=
  Run.run_refines (send_refines alloc) requests _ _ ⟨Represents.init alloc configuration, rfl⟩

/-! ## Numbering -/

theorem emitAll_unnumbered (events : List Emission) : ∀ out : Outbox,
    (emitAll out events).events.map unnumbered = out.events.map unnumbered ++ events.map unnumbered := by
  induction events with
  | nil => simp [emitAll]
  | cons event events ih =>
    intro out
    rw [emitAll_cons, ih]
    have one : (emit out event).events.map unnumbered = out.events.map unnumbered ++ [unnumbered event] := by
      cases event with
      | marketData message => simp [emit, unnumbered]
      | trade call => simp [emit, unnumbered]
      | orderEntry event => cases event <;> simp [emit, unnumbered]
    rw [one, List.append_assoc]
    rfl

/-- What an exchange emits has no numbers yet. -/
theorem accept_unnumbered (x : Exchange) (request : NewOrderSingle) :
    (x.accept request).2.map unnumbered = (x.accept request).2 := by
  have trades : ∀ fills : List Fill, (fills.map fun f => Emission.trade f.call).map unnumbered =
      fills.map fun f => Emission.trade f.call := by
    intro fills
    rw [List.map_map]
    rfl
  have reports : ∀ taker fills, (tradeReports request taker fills).map unnumbered = tradeReports request taker fills := by
    intro taker fills
    unfold tradeReports
    split <;> rfl
  simp only [Exchange.accept, List.map_append, List.map_cons, trades, reports]
  congr 1
  · congr 1
    split <;> rfl
  · split <;> rfl

theorem step_unnumbered (x : Exchange) (request : Request) : (x.step request).2.map unnumbered = (x.step request).2 := by
  have removal : ∀ o, (x.removalUpdate o).map unnumbered = x.removalUpdate o := by
    intro o
    unfold Exchange.removalUpdate
    split <;> rfl
  have outcome := step_outcome x request
  generalize x.step request = next at outcome ⊢
  cases outcome with
  | refused request events rejects =>
    conv_rhs => rw [← List.map_id events]
    refine List.map_congr_left fun event member => ?_
    obtain ⟨cancel, reason, text, rfl⟩ := rejects event member
    rfl
  | accepted request => exact accept_unnumbered x request
  | cancelled =>
    rw [List.map_cons, removal]
    rfl
  | replaced => rw [List.map_append, removal, accept_unnumbered]
  | lost =>
    rw [List.map_append, removal]
    rfl
  | flushed => rfl

/-- **Numbering changes nothing else**: without the ids, the numbered run is the run. -/
theorem run_unnumbered (configuration : EngineConfig) (requests : List Request) :
    run configuration requests =
      ((numberedRun configuration requests).1.1,
        (numberedRun configuration requests).2.map (Prod.map id (List.map unnumbered))) := by
  refine Run.drive_map (f := numberedStep) (g := Prod.fst) (fun s request => ?_) (Exchange.init configuration, {}) requests
  have events : (numberedStep s request).2.map unnumbered = (s.1.step request).2 := by
    show (emitAll { s.2 with events := [] } (s.1.step request).2).events.map unnumbered = _
    rw [emitAll_unnumbered, step_unnumbered]
    rfl
  rw [events]
  rfl

end DemoExchange.Refinement
