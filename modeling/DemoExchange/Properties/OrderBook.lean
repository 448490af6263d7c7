import DemoExchange.MatchingEngine.Ladder
import DemoExchange.Properties.Agreement

/-!
# Placing and cancelling

A book that orders were placed in and taken out of is the book of those still
in it, placed one after another: a cancelled order leaves no trace.
-/

namespace DemoExchange.Properties
set_option autoImplicit false
open OrderEntry MatchingEngine

section Operations

/-- An operation on a book, or a write by the owner of a node. -/
inductive BookOp where
  | place (node : Addr)
  | cancel (node : Addr)
  | write (node : Addr) (data : OrderState)

def execute : OrderBook × Heap → BookOp → Except Fault (OrderBook × Heap)
  | (book, heap), .place node => book.place heap node
  | (book, heap), .cancel node => book.cancel heap node
  | (book, heap), .write node data => .ok (book, Function.update heap node (some ⟨false, data⟩))

def executeAll : OrderBook × Heap → List BookOp → Except Fault (OrderBook × Heap)
  | state, [] => .ok state
  | state, op :: ops => do
    let state ← execute state op
    executeAll state ops

/-- The nodes around a book: what each holds, and those placed, in the order of their placement. -/
structure Nodes where
  data : Addr → Option OrderState
  placed : List (Addr × OrderState) := []

namespace Nodes

variable (nodes : Nodes)

/-- The nodes in memory: those placed are linked. -/
def heap : Heap := fun node => (nodes.data node).map fun data => ⟨decide (node ∈ nodes.placed.map Prod.fst), data⟩

def after : BookOp → Nodes
  | .place node => { nodes with placed := nodes.placed ++ ((nodes.data node).map fun data => (node, data)).toList }
  | .cancel node => { nodes with placed := butAt Prod.fst node nodes.placed }
  | .write node data => { nodes with data := Function.update nodes.data node (some data) }

def afterAll (ops : List BookOp) : Nodes := ops.foldl after nodes

/-- A node is placed while it is not linked, cancelled while it is, and written while it is not. -/
def Allows : BookOp → Prop
  | .place node => (nodes.data node).isSome ∧ node ∉ nodes.placed.map Prod.fst
  | .cancel node => node ∈ nodes.placed.map Prod.fst
  | .write node _ => node ∉ nodes.placed.map Prod.fst

def AllowsAll : Nodes → List BookOp → Prop
  | _, [] => True
  | nodes, op :: ops => nodes.Allows op ∧ (nodes.after op).AllowsAll ops

/-- No node is placed twice, and a placed node holds what it was placed with. -/
structure Sound (nodes : Nodes) : Prop where
  distinct : (nodes.placed.map Prod.fst).Nodup
  kept : ∀ x ∈ nodes.placed, nodes.data x.1 = some x.2

end Nodes

/-- The orders of one side. -/
def onSide (side : Side) (placed : List (Addr × OrderState)) : List (Addr × OrderState) := placed.filter fun x => x.2.side = side

/-- The book holds exactly some orders. -/
def Shows (book : OrderBook) (placed : List (Addr × OrderState)) : Prop :=
  ∀ side, Ladder Prod.fst Prod.snd side (book.sideMap side) (onSide side placed)

end Operations

section Steps

variable {book : OrderBook} {heap : Heap} {placed : List (Addr × OrderState)} {x : Addr × OrderState} {nodes : Nodes} {op : BookOp}

theorem shows_empty : Shows {} [] := by
  intro side
  cases side <;> exact Ladder.nil

theorem onSide_append (side : Side) : onSide side (placed ++ [x]) = onSide side placed ++ if x.2.side = side then [x] else [] := by
  by_cases here : x.2.side = side <;> simp [onSide, here]

theorem onSide_butAt (side : Side) (node : Addr) : onSide side (butAt Prod.fst node placed) = butAt Prod.fst node (onSide side placed) := by
  simp only [onSide, butAt, List.filter_filter, Bool.and_comm]

/-- Nodes of the other side are left alone. -/
theorem onSide_butAt_other (distinct : (placed.map Prod.fst).Nodup) (member : x ∈ placed) {side : Side} (apart : x.2.side ≠ side) :
    onSide side (butAt Prod.fst x.1 placed) = onSide side placed := by
  rw [onSide_butAt]
  apply butAt_absent
  intro inside
  obtain ⟨y, inside, same⟩ := List.mem_map.1 inside
  obtain ⟨inside, there⟩ := List.mem_filter.1 inside
  rw [List.inj_on_of_nodup_map distinct inside member same] at there
  exact apart (of_decide_eq_true there)

theorem Shows.place (shows : Shows book placed) (slot : heap x.1 = some ⟨false, x.2⟩) :
    ∃ book', book.place heap x.1 = .ok (book', Function.update heap x.1 (some ⟨true, x.2⟩)) ∧ Shows book' (placed ++ [x]) := by
  obtain ⟨m', placed', ladder⟩ := (shows x.2.side).place slot
  refine ⟨book.withSideMap x.2.side m', ?_, fun side => ?_⟩
  · simp only [OrderBook.place, deref, slot, bind, Except.bind, placed', pure, Except.pure]
  · rw [onSide_append]
    by_cases here : x.2.side = side
    · subst here
      rw [if_pos rfl, OrderBook.sideMap_withSideMap]
      exact ladder
    · rw [if_neg here, List.append_nil, OrderBook.sideMap_withSideMap_ne book (Ne.symm here)]
      exact shows side

theorem Shows.cancel (shows : Shows book placed) (distinct : (placed.map Prod.fst).Nodup) (member : x ∈ placed)
    (slot : heap x.1 = some ⟨true, x.2⟩) :
    ∃ book', book.cancel heap x.1 = .ok (book', Function.update heap x.1 (some ⟨false, x.2⟩)) ∧
      Shows book' (butAt Prod.fst x.1 placed) := by
  have here : x ∈ onSide x.2.side placed := List.mem_filter.2 ⟨member, decide_eq_true rfl⟩
  have sub : List.Sublist (onSide x.2.side placed) placed := List.filter_sublist
  obtain ⟨m', cancelled, ladder⟩ := (shows x.2.side).cancel (distinct.sublist (sub.map _)) here slot
  refine ⟨book.withSideMap x.2.side m', ?_, fun side => ?_⟩
  · simp only [OrderBook.cancel, deref, slot, bind, Except.bind, cancelled, pure, Except.pure]
  · by_cases same : x.2.side = side
    · subst same
      rw [onSide_butAt, OrderBook.sideMap_withSideMap]
      exact ladder
    · rw [onSide_butAt_other distinct member same, OrderBook.sideMap_withSideMap_ne book (Ne.symm same)]
      exact shows side

theorem Nodes.heap_linked {node : Addr} {data : OrderState} (held : nodes.data node = some data)
    (linked : node ∈ nodes.placed.map Prod.fst) : nodes.heap node = some ⟨true, data⟩ := by
  rw [Nodes.heap, held, Option.map_some, decide_eq_true linked]

theorem Nodes.heap_free {node : Addr} {data : OrderState} (held : nodes.data node = some data)
    (free : node ∉ nodes.placed.map Prod.fst) : nodes.heap node = some ⟨false, data⟩ := by
  rw [Nodes.heap, held, Option.map_some, decide_eq_false free]

theorem Nodes.heap_congr {nodes' : Nodes} {node : Addr} (data : nodes.data node = nodes'.data node)
    (placed : node ∈ nodes.placed.map Prod.fst ↔ node ∈ nodes'.placed.map Prod.fst) : nodes.heap node = nodes'.heap node := by
  rw [Nodes.heap, Nodes.heap, data, decide_eq_decide.2 placed]

theorem Nodes.Sound.heap_placed (sound : nodes.Sound) (member : x ∈ nodes.placed) : nodes.heap x.1 = some ⟨true, x.2⟩ :=
  Nodes.heap_linked (sound.kept x member) (List.mem_map_of_mem member)

theorem Nodes.after_place (held : nodes.data x.1 = some x.2) :
    nodes.after (.place x.1) = { nodes with placed := nodes.placed ++ [x] } := by
  simp only [Nodes.after, held, Option.map_some, Option.toList_some]

theorem Nodes.heap_place (held : nodes.data x.1 = some x.2) :
    (nodes.after (.place x.1)).heap = Function.update nodes.heap x.1 (some ⟨true, x.2⟩) := by
  rw [Nodes.after_place held]
  funext node
  by_cases same : node = x.1
  · subst same
    rw [Function.update_self]
    exact Nodes.heap_linked held (by simp)
  · rw [Function.update_of_ne same]
    exact Nodes.heap_congr rfl (by simp [same])

theorem Nodes.Sound.heap_cancel (sound : nodes.Sound) (member : x ∈ nodes.placed) :
    (nodes.after (.cancel x.1)).heap = Function.update nodes.heap x.1 (some ⟨false, x.2⟩) := by
  funext node
  by_cases same : node = x.1
  · subst same
    rw [Function.update_self]
    exact Nodes.heap_free (sound.kept x member) (by simp [Nodes.after, butAt])
  · rw [Function.update_of_ne same]
    exact Nodes.heap_congr rfl (by simp [Nodes.after, butAt, same])

theorem Nodes.heap_write (free : x.1 ∉ nodes.placed.map Prod.fst) :
    (nodes.after (.write x.1 x.2)).heap = Function.update nodes.heap x.1 (some ⟨false, x.2⟩) := by
  funext node
  by_cases same : node = x.1
  · subst same
    rw [Function.update_self]
    exact Nodes.heap_free (Function.update_self _ _ _) free
  · rw [Function.update_of_ne same]
    exact Nodes.heap_congr (Function.update_of_ne same _ _) Iff.rfl

theorem Nodes.Sound.after (sound : nodes.Sound) (allows : nodes.Allows op) : (nodes.after op).Sound := by
  cases op with
  | place node =>
    obtain ⟨held, free⟩ := allows
    obtain ⟨data, held⟩ := Option.isSome_iff_exists.1 held
    rw [Nodes.after_place (x := (node, data)) held]
    constructor
    · rw [List.map_append, List.map_singleton]
      refine List.nodup_append.2 ⟨sound.distinct, List.nodup_singleton _, fun a inside b last same => ?_⟩
      rw [same, List.mem_singleton.1 last] at inside
      exact free inside
    · intro y member
      rcases List.mem_append.1 member with member | member
      · exact sound.kept y member
      · rw [List.mem_singleton.1 member]
        exact held
  | cancel node =>
    have sub : List.Sublist (butAt Prod.fst node nodes.placed) nodes.placed := List.filter_sublist
    exact ⟨sound.distinct.sublist (sub.map _), fun y member => sound.kept y (sub.subset member)⟩
  | write node data =>
    refine ⟨sound.distinct, fun y member => ?_⟩
    have apart : y.1 ≠ node := fun same => allows (same ▸ List.mem_map_of_mem member)
    simp only [Nodes.after, Function.update_of_ne apart]
    exact sound.kept y member

/-- **An allowed operation** does not fault, and the book shows the nodes after it. -/
theorem execute_allowed (sound : nodes.Sound) (shows : Shows book nodes.placed) (allows : nodes.Allows op) :
    ∃ book', execute (book, nodes.heap) op = .ok (book', (nodes.after op).heap) ∧ Shows book' (nodes.after op).placed := by
  cases op with
  | place node =>
    obtain ⟨held, free⟩ := allows
    obtain ⟨data, held⟩ := Option.isSome_iff_exists.1 held
    have slot : nodes.heap node = some ⟨false, data⟩ := Nodes.heap_free held free
    rw [Nodes.heap_place (x := (node, data)) held, Nodes.after_place (x := (node, data)) held]
    exact shows.place (x := (node, data)) slot
  | cancel node =>
    obtain ⟨x, member, rfl⟩ := List.mem_map.1 allows
    rw [sound.heap_cancel member]
    exact shows.cancel sound.distinct member (sound.heap_placed member)
  | write node data =>
    rw [Nodes.heap_write (x := (node, data)) allows]
    exact ⟨book, rfl, shows⟩

theorem executeAll_allowed {ops : List BookOp} (sound : nodes.Sound) (shows : Shows book nodes.placed) (allows : nodes.AllowsAll ops) :
    ∃ book', executeAll (book, nodes.heap) ops = .ok (book', (nodes.afterAll ops).heap) ∧
      Shows book' (nodes.afterAll ops).placed ∧ (nodes.afterAll ops).Sound := by
  induction ops generalizing book nodes with
  | nil => exact ⟨book, rfl, shows, sound⟩
  | cons op ops ih =>
    obtain ⟨here, later⟩ := allows
    obtain ⟨book', executed, shows'⟩ := execute_allowed sound shows here
    obtain ⟨book'', ran, result⟩ := ih (sound.after here) shows' later
    refine ⟨book'', ?_, result⟩
    rw [executeAll, executed]
    exact ran

/-- Nodes of which none is placed. -/
theorem Nodes.sound_idle (data : Addr → Option OrderState) : Nodes.Sound ⟨data, []⟩ := ⟨List.nodup_nil, nofun⟩

/-- Placing what is placed, one after another, is allowed. -/
theorem Nodes.Sound.rebuild (sound : nodes.Sound) :
    Nodes.AllowsAll ⟨nodes.data, []⟩ (nodes.placed.map fun x => .place x.1) ∧
      Nodes.afterAll ⟨nodes.data, []⟩ (nodes.placed.map fun x => .place x.1) = nodes := by
  have rest : ∀ (later placed : List (Addr × OrderState)), placed ++ later = nodes.placed →
      Nodes.AllowsAll ⟨nodes.data, placed⟩ (later.map fun x => .place x.1) ∧
        Nodes.afterAll ⟨nodes.data, placed⟩ (later.map fun x => .place x.1) = nodes := by
    intro later
    induction later with
    | nil =>
      intro placed whole
      rw [List.append_nil] at whole
      subst whole
      exact ⟨trivial, rfl⟩
    | cons x later ih =>
      intro placed whole
      have held : nodes.data x.1 = some x.2 := sound.kept x (whole ▸ List.mem_append_right _ List.mem_cons_self)
      have free : x.1 ∉ placed.map Prod.fst := by
        have distinct := sound.distinct
        rw [← whole, List.map_append, List.nodup_append] at distinct
        exact fun inside => distinct.2.2 _ inside _ (List.mem_map_of_mem List.mem_cons_self) rfl
      have next : Nodes.after ⟨nodes.data, placed⟩ (.place x.1) = ⟨nodes.data, placed ++ [x]⟩ := Nodes.after_place held
      obtain ⟨allowed, reached⟩ := ih (placed ++ [x]) (by rw [List.append_assoc]; exact whole)
      rw [List.map_cons, Nodes.AllowsAll, Nodes.afterAll, List.foldl_cons, next]
      exact ⟨⟨⟨by rw [held]; rfl, free⟩, allowed⟩, reached⟩
  exact rest nodes.placed [] rfl

end Steps

section Survivors

/-- `total_at_best_bid` and `total_at_best_ask`. -/
def totalAtBestOf (book : OrderBook) : Side → Option Quantity
  | .buy => book.totalAtBestBid
  | .sell => book.totalAtBestAsk

/-- One side of a book is that of some orders: its levels, and what its accessors tell. -/
structure Agrees (book : OrderBook) (side : Side) (l : List (Addr × OrderState)) : Prop where
  sorted : SortedMap.Sorted (before side) (book.sideMap side)
  levels : ∀ price level, (price, level) ∈ book.sideMap side ↔
    atPrice Prod.snd price l ≠ [] ∧ level = levelHolding Prod.fst Prod.snd (atPrice Prod.snd price l)
  empty : book.best side = none ↔ l = []
  best : ∀ price, book.best side = some price ↔ atPrice Prod.snd price l ≠ [] ∧ ∀ x ∈ l, ¬ before side x.2.price price
  total : totalAtBestOf book side = (book.best side).map fun price => sumLeaves Prod.snd (atPrice Prod.snd price l)
  bestLevel : book.bestLevel side = (book.best side).map fun price => ⟨price, sumLeaves Prod.snd (atPrice Prod.snd price l)⟩

theorem Shows.agrees {book : OrderBook} {placed : List (Addr × OrderState)} (shows : Shows book placed) (side : Side) :
    Agrees book side (onSide side placed) := by
  have ladder := shows side
  have best : book.best side = bestPrice (book.sideMap side) := by cases side <;> rfl
  have total : totalAtBestOf book side = totalAtBest (book.sideMap side) := by cases side <;> rfl
  refine ⟨ladder.sorted, ladder.mem_levels, ?_, ?_, ?_, ?_⟩
  · rw [best]
    exact ladder.best_none
  · rw [best]
    exact ladder.best_some
  · rw [total, best, totalAtBest_eq, ladder.best_level, Option.map_map]
    rfl
  · rw [OrderBook.bestLevel, best]
    exact ladder.best_level

/-- The levels of a side with the nodes of each. -/
def fifos (book : OrderBook) (side : Side) : List (Price × List Addr) := (book.sideMap side).map (Prod.map id PriceLevel.orders)

theorem Shows.unique {book book' : OrderBook} {placed : List (Addr × OrderState)} (shows : Shows book placed)
    (shows' : Shows book' placed) : book = book' := by
  obtain ⟨bids, asks⟩ := book
  obtain ⟨bids', asks'⟩ := book'
  have buy : bids = bids' := (shows .buy).unique (shows' .buy)
  have sell : asks = asks' := (shows .sell).unique (shows' .sell)
  rw [buy, sell]

/-- **A cancelled order leaves no trace.** After any allowed history the book
is the one of the nodes still placed, put into an empty book one after another;
its levels, totals and best prices are theirs; and one more cancel takes its
node out of its level and, with the last, the level out of the side. -/
theorem cancelled_leave_no_trace (data : Addr → Option OrderState) (ops : List BookOp) (allowed : Nodes.AllowsAll ⟨data, []⟩ ops) :
    let nodes := Nodes.afterAll ⟨data, []⟩ ops
    ∃ book, executeAll ({}, Nodes.heap ⟨data, []⟩) ops = .ok (book, nodes.heap) ∧
      executeAll ({}, Nodes.heap ⟨nodes.data, []⟩) (nodes.placed.map fun x => .place x.1) = .ok (book, nodes.heap) ∧
      (∀ side, Agrees book side (onSide side nodes.placed)) ∧
      ∀ node ∈ nodes.placed.map Prod.fst, ∃ book',
        book.cancel nodes.heap node = .ok (book', (nodes.after (.cancel node)).heap) ∧
        ∀ side, fifos book' side = ((fifos book side).map (Prod.map id (List.filter fun a => a ≠ node))).filter fun x => x.2 ≠ [] := by
  intro nodes
  obtain ⟨book, ran, shows, sound⟩ := executeAll_allowed (Nodes.sound_idle data) shows_empty allowed
  obtain ⟨allowed', reached⟩ := sound.rebuild
  obtain ⟨book', rebuilt, shows', -⟩ := executeAll_allowed (Nodes.sound_idle _) shows_empty allowed'
  rw [reached] at rebuilt shows'
  rw [← shows.unique shows'] at rebuilt
  refine ⟨book, ran, rebuilt, shows.agrees, fun node member => ?_⟩
  have allows : nodes.Allows (.cancel node) := member
  obtain ⟨book'', cancelled, shows''⟩ := execute_allowed sound shows allows
  refine ⟨book'', cancelled, fun side => (shows side).levels_butAt ?_⟩
  rw [← onSide_butAt]
  exact shows'' side

/-- An order to buy at 10. -/
def tenBid (quantity : Quantity) : OrderState := makeOrderState (makeNewOrderSingle alice 1 .buy 10 quantity)

theorem cancelled_leave_no_trace_bids :
    ∃ book heap, executeAll ({}, Nodes.heap ⟨fun _ => some (tenBid 100), []⟩) [.place 1, .place 2, .cancel 1] = .ok (book, heap) ∧
      executeAll ({}, Nodes.heap ⟨fun _ => some (tenBid 100), []⟩) [.place 2] = .ok (book, heap) := by
  have allowed : Nodes.AllowsAll ⟨fun _ => some (tenBid 100), []⟩ [.place 1, .place 2, .cancel 1] := by
    simp [Nodes.AllowsAll, Nodes.Allows, Nodes.after]
  obtain ⟨book, ran, rebuilt, -⟩ := cancelled_leave_no_trace _ _ allowed
  exact ⟨book, _, ran, rebuilt⟩

end Survivors

end DemoExchange.Properties
