import DemoExchange.Reference.Taking
import DemoExchange.Properties.Agreement
import Mathlib.Data.List.Flatten

/-!
# What `match` does to a side map

Whatever its callbacks do, `match` calls them for the trades of the taker with
the makers of the levels that cross, in order, and leaves the side map without
the makers that the trades used up and without the levels that this emptied.
The callbacks are asked to dispose of a released node and to touch no other.
-/

namespace DemoExchange.Properties
set_option autoImplicit false
open OrderEntry MatchingEngine Reference

/-- A call of `on_trade`, or of `on_release` with what the slot held. -/
inductive Call where
  | traded (call : TradeCall)
  | released (node : Addr) (slot : Option OrderNode)
  deriving DecidableEq, Repr

section Specification

variable {σ : Type}

/-- Callbacks that also write down how they were called. -/
def recording (cb : Callbacks σ) : Callbacks (σ × List Call) where
  onTrade call env := (cb.onTrade call env.1, env.2 ++ [.traded call])
  onRelease node heap env := do
    let (heap', env') ← cb.onRelease node heap env.1
    return (heap', env', env.2 ++ [.released node (heap node)])

/-- `on_release` returns for a node that is in its slot and in no list, and touches no other slot. -/
def Disposes (cb : Callbacks σ) : Prop :=
  ∀ node n heap env, heap node = some n → n.linked = false →
    ∃ heap' env', cb.onRelease node heap env = .ok (heap', env') ∧ ∀ a, a ≠ node → heap' a = heap a

/-- The makers of a level, in order. -/
def makersAt (heap : Heap) (price : Price) (nodes : List Addr) : List Maker :=
  nodes.filterMap fun node => (heap node).map fun n => ⟨price, node, n.data⟩

/-- The makers of a side map, level by level. -/
def makersOf (heap : Heap) (m : SideMap) : List Maker := m.flatMap fun entry => makersAt heap entry.1 entry.2.orders

/-- Every node is linked once and has something left. -/
structure Linked (heap : Heap) (nodes : List Addr) : Prop where
  once : nodes.Nodup
  slots : ∀ node ∈ nodes, ∃ order, heap node = some ⟨true, order⟩ ∧ order.leavesQty ≠ 0

/-- The total of every level is the sum of its orders, modulo the word size. -/
def Totalled (heap : Heap) (m : SideMap) : Prop :=
  ∀ entry ∈ m, entry.2.totalRemaining = ((makersAt heap entry.1 entry.2.orders).map (·.order.leavesQty)).sum

/-- A side map as `match` may be given it. -/
structure Stocked (heap : Heap) (m : SideMap) : Prop where
  filled : ∀ entry ∈ m, entry.2.orders ≠ []
  nodes : Linked heap (m.flatMap (·.2.orders))
  totals : Totalled heap m

/-- The calls for some trades: a maker that is used up is released right after its trade. -/
def callsFor (ts : List Taken) : List Call :=
  ts.flatMap fun t =>
    .traded t.call :: if t.usesUp then [.released t.maker.node (some ⟨false, t.makerAfter⟩)] else []

/-- A level without the makers that some trades used up, and less what they took of it. -/
def stripped (ts : List Taken) (entry : Price × PriceLevel) : Price × PriceLevel :=
  (entry.1,
    { orders := entry.2.orders.filter fun node => node ∉ releasedNodes ts
      totalRemaining := entry.2.totalRemaining -
        ((ts.filter fun t => t.maker.node ∈ entry.2.orders).map (·.quantity)).sum })

/-- The slots after some trades: those of other nodes are untouched, and a
maker that is not used up has less left. -/
structure Traded (heap heap' : Heap) (ts : List Taken) : Prop where
  others : ∀ a, a ∉ ts.map (·.maker.node) → heap' a = heap a
  left : ∀ t ∈ ts, t.usesUp = false → heap' t.maker.node = some ⟨true, t.makerAfter⟩

end Specification

section Makers

variable {heap heap' : Heap} {price : Price} {node : Addr} {nodes : List Addr} {order : OrderState} {ts ts' : List Taken}

theorem Linked.cons (h : Linked heap (node :: nodes)) :
    ∃ order, heap node = some ⟨true, order⟩ ∧ order.leavesQty ≠ 0 ∧ node ∉ nodes ∧ Linked heap nodes := by
  obtain ⟨order, slot, some⟩ := h.slots node List.mem_cons_self
  obtain ⟨absent, once⟩ := List.nodup_cons.1 h.once
  exact ⟨order, slot, some, absent, once, fun a ha => h.slots a (List.mem_cons_of_mem _ ha)⟩

theorem Linked.congr (h : Linked heap nodes) (same : ∀ a ∈ nodes, heap' a = heap a) : Linked heap' nodes :=
  ⟨h.once, fun a ha => by rw [same a ha]; exact h.slots a ha⟩

theorem makersAt_congr (same : ∀ a ∈ nodes, heap' a = heap a) : makersAt heap' price nodes = makersAt heap price nodes :=
  List.filterMap_congr fun a ha => by rw [same a ha]

theorem makersAt_cons (slot : heap node = some ⟨true, order⟩) :
    makersAt heap price (node :: nodes) = ⟨price, node, order⟩ :: makersAt heap price nodes := by
  unfold makersAt
  rw [List.filterMap_cons_some (by rw [slot]; rfl)]

theorem makersAt_sublist : ((makersAt heap price nodes).map (·.node)).Sublist nodes := by
  induction nodes with
  | nil => exact List.Sublist.refl _
  | cons node nodes ih =>
    cases slot : heap node with
    | none =>
      rw [makersAt, List.filterMap_cons_none (by rw [slot]; rfl)]
      exact ih.cons node
    | some n =>
      rw [makersAt, List.filterMap_cons_some (by rw [slot]; rfl)]
      exact ih.cons_cons node

theorem mem_makersAt {maker : Maker} (member : maker ∈ makersAt heap price nodes) : maker.node ∈ nodes :=
  makersAt_sublist.subset (List.mem_map_of_mem member)

theorem makersAt_price {maker : Maker} (member : maker ∈ makersAt heap price nodes) : maker.price = price := by
  obtain ⟨a, -, slot⟩ := List.mem_filterMap.1 member
  obtain ⟨n, -, rfl⟩ := Option.map_eq_some_iff.1 slot
  rfl

theorem makersAt_nodes (h : Linked heap nodes) : (makersAt heap price nodes).map (·.node) = nodes := by
  induction nodes with
  | nil => rfl
  | cons node nodes ih =>
    obtain ⟨order, slot, -, -, rest⟩ := h.cons
    rw [makersAt_cons slot, List.map_cons, ih rest]

/-- The trades with a level are with its nodes. -/
theorem takenFrom_nodes (taker : OrderState) {makers : List Maker} {a : Addr}
    (member : a ∈ (takenFrom taker makers).map (·.maker.node)) : a ∈ makers.map (·.node) := by
  obtain ⟨t, ht, rfl⟩ := List.mem_map.1 member
  exact List.mem_map_of_mem ((takenFrom_makers taker).subset (List.mem_map_of_mem ht))

theorem releasedNodes_subset : releasedNodes ts ⊆ ts.map (·.maker.node) :=
  List.map_subset _ (List.filter_subset_self _)

theorem Traded.refl (heap : Heap) : Traded heap heap [] := ⟨fun _ _ => rfl, by simp⟩

/-- Trades with other nodes, one after the other. -/
theorem Traded.append {heap'' : Heap} (h : Traded heap heap' ts) (h' : Traded heap' heap'' ts')
    (apart : ∀ a ∈ ts.map (·.maker.node), a ∉ ts'.map (·.maker.node)) : Traded heap heap'' (ts ++ ts') where
  others := by
    intro a outside
    rw [List.map_append, List.mem_append, not_or] at outside
    rw [h'.others a outside.2, h.others a outside.1]
  left := by
    intro t ht left
    rcases List.mem_append.1 ht with ht | ht
    · rw [h'.others _ (apart _ (List.mem_map_of_mem ht))]
      exact h.left t ht left
    · exact h'.left t ht left

end Makers

section Levels

variable {σ : Type} {cb : Callbacks σ} {heap : Heap} {price : Price} {node : Addr} {nodes : List Addr}

/-- What is said of a level that `consume_level` returns. -/
structure Served (heap : Heap) (price : Price) (nodes : List Addr) (ts : List Taken) (heap' : Heap) : Prop where
  traded : Traded heap heap' ts
  /-- a maker that is not used up is the first that remains -/
  front : ∀ t ∈ ts, t.usesUp = false → (nodes.filter fun a => a ∉ releasedNodes ts).head? = some t.maker.node
  sums : ((makersAt heap price nodes).map (·.order.leavesQty)).sum =
    ((makersAt heap' price (nodes.filter fun a => a ∉ releasedNodes ts)).map (·.order.leavesQty)).sum +
      (ts.map (·.quantity)).sum

theorem Served.refl (heap : Heap) (price : Price) (nodes : List Addr) : Served heap price nodes [] heap := by
  have all : nodes.filter (fun a => a ∉ releasedNodes []) = nodes := List.filter_eq_self.2 fun a _ => by simp [releasedNodes]
  refine ⟨Traded.refl heap, by simp, ?_⟩
  rw [all]
  exact (add_zero _).symm

variable {t : Taken} {ts : List Taken}

/-- One turn of the loop on a maker that uses up the taker. -/
theorem consumeLevel_left (slot : heap t.maker.node = some ⟨true, t.maker.order⟩) (some : t.taker.leavesQty ≠ 0)
    (left : t.usesUp = false) (total : Quantity) (env : σ) (calls : List Call) :
    consumeLevel (recording cb) t.maker.price (t.maker.node :: nodes) total t.taker heap (env, calls) =
      .ok ⟨⟨t.maker.node :: nodes, total - t.quantity⟩, t.takerAfter, 1,
        Function.update heap t.maker.node (Option.some ⟨true, t.makerAfter⟩), (cb.onTrade t.call env, calls ++ [.traded t.call])⟩ := by
  have more : ¬t.maker.order.leavesQty - min t.taker.leavesQty t.maker.order.leavesQty = 0 := of_decide_eq_false left
  rw [consumeLevel, if_pos (UInt64.pos_iff_ne_zero.2 some)]
  simp only [deref, slot, bind, Except.bind, more, if_false, recording, makeTrade_eq, pure, Except.pure]
  rfl

/-- One turn of the loop on a maker that is used up. -/
theorem consumeLevel_used (disposes : Disposes cb) (slot : heap t.maker.node = some ⟨true, t.maker.order⟩)
    (some : t.taker.leavesQty ≠ 0) (used : t.usesUp = true) (total : Quantity) (env : σ) (calls : List Call) :
    ∃ heap' env', (∀ a, a ≠ t.maker.node → heap' a = heap a) ∧
      consumeLevel (recording cb) t.maker.price (t.maker.node :: nodes) total t.taker heap (env, calls) =
        (consumeLevel (recording cb) t.maker.price nodes (total - t.quantity) t.takerAfter heap'
          (env', calls ++ callsFor [t])).map fun out => { out with trades := out.trades + 1 } := by
  have none : t.maker.order.leavesQty - min t.taker.leavesQty t.maker.order.leavesQty = 0 := of_decide_eq_true used
  obtain ⟨heap', env', released, others⟩ := disposes t.maker.node ⟨false, t.makerAfter⟩
    (Function.update heap t.maker.node (Option.some ⟨false, t.makerAfter⟩)) (cb.onTrade t.call env)
    (Function.update_self _ _ _) rfl
  refine ⟨heap', env', fun a other => (others a other).trans (Function.update_of_ne other _ _), ?_⟩
  have calls' : calls ++ callsFor [t] = calls ++ [.traded t.call] ++ [.released t.maker.node (Option.some ⟨false, t.makerAfter⟩)] := by
    rw [callsFor, List.flatMap_singleton, if_pos used, List.append_assoc]
    rfl
  conv_lhs => rw [consumeLevel]
  rw [if_pos (UInt64.pos_iff_ne_zero.2 some), calls']
  simp only [Taken.makerAfter, Taken.takerAfter, Taken.call, Taken.quantity, fillOrder, none] at released ⊢
  simp only [deref, slot, bind, Except.bind, none, if_true, unlink, Function.update_self, Function.update_idem, recording,
    makeTrade_eq, released]
  rfl

/-- Releasing the first node of a level takes it off the level. -/
theorem filter_used (used : t.usesUp = true) (absent : t.maker.node ∉ nodes) :
    (t.maker.node :: nodes).filter (fun a => a ∉ releasedNodes (t :: ts)) = nodes.filter fun a => a ∉ releasedNodes ts := by
  have head : releasedNodes (t :: ts) = t.maker.node :: releasedNodes ts := by
    rw [releasedNodes, List.filter_cons_of_pos used]
    rfl
  rw [head, List.filter_cons_of_neg (by simp)]
  refine List.filter_congr fun a ha => ?_
  have other : a ≠ t.maker.node := ne_of_mem_of_not_mem ha absent
  simp [other]

/-- A maker that is used up before the others are served. -/
theorem Served.cons {heap' heap'' : Heap} (slot : heap t.maker.node = some ⟨true, t.maker.order⟩) (used : t.usesUp = true)
    (absent : t.maker.node ∉ nodes) (others : ∀ a, a ≠ t.maker.node → heap' a = heap a)
    (served : Served heap' t.maker.price nodes ts heap'') (makers : ∀ a ∈ ts.map (·.maker.node), a ∈ nodes) :
    Served heap t.maker.price (t.maker.node :: nodes) (t :: ts) heap'' where
  traded := by
    refine @Traded.append _ _ [t] _ _ ⟨fun a other => ?_, fun t' ht' left => ?_⟩ served.traded ?_
    · exact others a (by simpa using other)
    · rw [List.mem_singleton.1 ht', used] at left
      cases left
    · simp only [List.map_cons, List.map_nil, List.mem_singleton, forall_eq]
      exact fun member => absent (makers _ member)
  front := by
    intro t' ht' left
    rw [filter_used used absent]
    obtain rfl | ht' := List.mem_cons.1 ht'
    · rw [used] at left
      cases left
    · exact served.front t' ht' left
  sums := by
    have same : makersAt heap' t.maker.price nodes = makersAt heap t.maker.price nodes :=
      makersAt_congr fun a ha => others a (ne_of_mem_of_not_mem ha absent)
    have all : t.quantity = t.maker.order.leavesQty := by
      have zero : t.maker.order.leavesQty - t.quantity = 0 := of_decide_eq_true used
      rw [sub_eq_zero.1 zero]
    have rest := served.sums
    rw [same] at rest
    rw [filter_used used absent, makersAt_cons slot, List.map_cons, List.sum_cons, rest, List.map_cons, List.sum_cons, all]
    exact add_left_comm _ _ _

/-- A maker that is not used up is the last to be served. -/
theorem Served.last (slot : heap t.maker.node = some ⟨true, t.maker.order⟩) (left : t.usesUp = false)
    (absent : t.maker.node ∉ nodes) :
    Served heap t.maker.price (t.maker.node :: nodes) [t] (Function.update heap t.maker.node (some ⟨true, t.makerAfter⟩)) := by
  have none : releasedNodes [t] = [] := by rw [releasedNodes, List.filter_cons_of_neg (by simp [left])]; rfl
  have all : (t.maker.node :: nodes).filter (fun a => a ∉ releasedNodes [t]) = t.maker.node :: nodes :=
    List.filter_eq_self.2 fun a _ => by simp [none]
  refine ⟨⟨fun a other => ?_, fun t' ht' _ => ?_⟩, fun t' ht' _ => ?_, ?_⟩
  · exact Function.update_of_ne (by simpa using other) _ _
  · rw [List.mem_singleton.1 ht']
    exact Function.update_self _ _ _
  · rw [all, List.mem_singleton.1 ht']
    rfl
  · have same := @makersAt_congr heap (Function.update heap t.maker.node (some ⟨true, t.makerAfter⟩)) t.maker.price nodes
      fun a ha => Function.update_of_ne (ne_of_mem_of_not_mem ha absent) _ _
    rw [all, makersAt_cons slot, makersAt_cons (Function.update_self _ _ _), same]
    simp only [List.map_cons, List.map_nil, List.sum_cons, List.sum_nil, Taken.makerAfter, fillOrder]
    rw [add_zero, add_right_comm, sub_add_cancel]

/-- **`consume_level`** trades with the makers of its level, in order. -/
theorem consumeLevel_taken (disposes : Disposes cb) (price : Price) : ∀ (nodes : List Addr) (total : Quantity)
    (taker : OrderState) (heap : Heap) (env : σ) (calls : List Call), Linked heap nodes →
    ∃ heap' env', consumeLevel (recording cb) price nodes total taker heap (env, calls) =
        .ok ⟨⟨nodes.filter fun a => a ∉ releasedNodes (takenFrom taker (makersAt heap price nodes)),
            total - ((takenFrom taker (makersAt heap price nodes)).map (·.quantity)).sum⟩,
          takerLeft taker (makersAt heap price nodes), (takenFrom taker (makersAt heap price nodes)).length, heap',
          (env', calls ++ callsFor (takenFrom taker (makersAt heap price nodes)))⟩ ∧
      Served heap price nodes (takenFrom taker (makersAt heap price nodes)) heap' := by
  intro nodes
  induction nodes with
  | nil =>
    intro total taker heap env calls _
    refine ⟨heap, env, ?_, Served.refl heap price []⟩
    simp [consumeLevel, makersAt, takenFrom, takerLeft, callsFor]
  | cons node nodes ih =>
    intro total taker heap env calls linked
    obtain ⟨order, slot, some, absent, rest⟩ := linked.cons
    rw [makersAt_cons slot]
    by_cases empty : taker.leavesQty = 0
    · refine ⟨heap, env, ?_, ?_⟩
      · have idle : ¬taker.leavesQty > 0 := by rw [empty]; exact UInt64.lt_irrefl 0
        rw [takenFrom_empty empty, takerLeft_empty empty, consumeLevel, if_neg idle]
        simp [releasedNodes, callsFor]
      · rw [takenFrom_empty empty]
        exact Served.refl heap price _
    · obtain ⟨t, rfl, rfl, rfl, rfl⟩ : ∃ t : Taken, price = t.maker.price ∧ node = t.maker.node ∧ order = t.maker.order ∧
          taker = t.taker := ⟨⟨⟨price, node, order⟩, taker⟩, rfl, rfl, rfl, rfl⟩
      have first : takenFrom t.taker (⟨t.maker.price, t.maker.node, t.maker.order⟩ :: makersAt heap t.maker.price nodes) =
          t :: takenFrom t.takerAfter (makersAt heap t.maker.price nodes) := takenFrom_cons empty
      have after : takerLeft t.taker (⟨t.maker.price, t.maker.node, t.maker.order⟩ :: makersAt heap t.maker.price nodes) =
          takerLeft t.takerAfter (makersAt heap t.maker.price nodes) := takerLeft_cons
      rw [first, after]
      cases used : t.usesUp with
      | true =>
        obtain ⟨heap', env', others, turn⟩ := @consumeLevel_used _ _ _ nodes t disposes slot empty used total env calls
        have apart : ∀ a ∈ nodes, heap' a = heap a := fun a ha => others a (ne_of_mem_of_not_mem ha absent)
        obtain ⟨heap'', env'', level, served⟩ := ih (total - t.quantity) t.takerAfter heap' env' (calls ++ callsFor [t])
          (rest.congr apart)
        rw [makersAt_congr apart] at level served
        refine ⟨heap'', env'', ?_, served.cons slot used absent others fun a member => ?_⟩
        · rw [turn, level, filter_used used absent]
          simp only [Except.map, callsFor, List.map_cons, List.sum_cons, List.length_cons, List.flatMap_cons, List.flatMap_nil,
            List.append_nil, List.append_assoc, sub_sub]
        · have among := takenFrom_nodes _ member
          rwa [makersAt_nodes rest] at among
      | false =>
        have none := Taken.used_taker used
        rw [takenFrom_empty none, takerLeft_empty none]
        refine ⟨_, cb.onTrade t.call env, ?_, Served.last slot used absent⟩
        rw [consumeLevel_left slot empty used]
        simp [releasedNodes, used, callsFor]

end Levels

section Walks

variable {σ : Type} {cb : Callbacks σ} {heap heap' : Heap} {ts ts' : List Taken} {entry : Price × PriceLevel} {m : SideMap}

theorem releasedNodes_append : releasedNodes (ts ++ ts') = releasedNodes ts ++ releasedNodes ts' := by
  rw [releasedNodes, List.filter_append, List.map_append]
  rfl

theorem callsFor_append : callsFor (ts ++ ts') = callsFor ts ++ callsFor ts' := List.flatMap_append

/-- Trades with other levels. -/
def Apart (ts : List Taken) (nodes : List Addr) : Prop := ∀ a ∈ ts.map (·.maker.node), a ∉ nodes

theorem Apart.none {nodes : List Addr} (apart : Apart ts nodes) : ts.filter (fun t => t.maker.node ∈ nodes) = [] :=
  List.filter_eq_nil_iff.2 fun t ht => by simpa using apart _ (List.mem_map_of_mem ht)

theorem Apart.kept {nodes : List Addr} (apart : Apart ts nodes) : ∀ a ∈ nodes, a ∉ releasedNodes ts :=
  fun a ha released => apart a (releasedNodes_subset released) ha

theorem stripped_apart (apart : Apart ts entry.2.orders) : stripped ts entry = entry := by
  have orders : entry.2.orders.filter (fun a => a ∉ releasedNodes ts) = entry.2.orders :=
    List.filter_eq_self.2 fun a ha => decide_eq_true (apart.kept a ha)
  rw [stripped, orders, apart.none]
  simp

theorem stripped_append_left (apart : Apart ts' entry.2.orders) : stripped (ts ++ ts') entry = stripped ts entry := by
  have orders : entry.2.orders.filter (fun a => a ∉ releasedNodes (ts ++ ts')) =
      entry.2.orders.filter fun a => a ∉ releasedNodes ts :=
    List.filter_congr fun a ha => by simp [releasedNodes_append, apart.kept a ha]
  rw [stripped, orders, List.filter_append, apart.none, List.append_nil]
  rfl

theorem stripped_append_right (apart : Apart ts entry.2.orders) : stripped (ts ++ ts') entry = stripped ts' entry := by
  have orders : entry.2.orders.filter (fun a => a ∉ releasedNodes (ts ++ ts')) =
      entry.2.orders.filter fun a => a ∉ releasedNodes ts' :=
    List.filter_congr fun a ha => by simp [releasedNodes_append, apart.kept a ha]
  rw [stripped, orders, List.filter_append, apart.none, List.nil_append]
  rfl

/-- A level that trades with the taker, and with no other. -/
theorem stripped_own (own : ∀ a ∈ ts.map (·.maker.node), a ∈ entry.2.orders) :
    stripped ts entry = (entry.1, ⟨entry.2.orders.filter fun a => a ∉ releasedNodes ts,
      entry.2.totalRemaining - (ts.map (·.quantity)).sum⟩) := by
  have all : ts.filter (fun t => t.maker.node ∈ entry.2.orders) = ts :=
    List.filter_eq_self.2 fun t ht => decide_eq_true (own _ (List.mem_map_of_mem ht))
  rw [stripped, all]

theorem Stocked.cons (stocked : Stocked heap (entry :: m)) :
    Linked heap entry.2.orders ∧ Stocked heap m ∧ ∀ a ∈ entry.2.orders, a ∉ m.flatMap (·.2.orders) := by
  obtain ⟨filled, ⟨once, slots⟩, totals⟩ := stocked
  rw [List.flatMap_cons] at once slots
  obtain ⟨first, rest, apart⟩ := List.nodup_append.1 once
  exact ⟨⟨first, fun a ha => slots a (List.mem_append_left _ ha)⟩,
    ⟨fun e he => filled e (List.mem_cons_of_mem _ he), ⟨rest, fun a ha => slots a (List.mem_append_right _ ha)⟩,
      fun e he => totals e (List.mem_cons_of_mem _ he)⟩, fun a ha hb => apart a ha a hb rfl⟩

theorem Stocked.congr (stocked : Stocked heap m) (same : ∀ a ∈ m.flatMap (·.2.orders), heap' a = heap a) : Stocked heap' m where
  filled := stocked.filled
  nodes := stocked.nodes.congr same
  totals := by
    intro e he
    rw [makersAt_congr fun a ha => same a (List.mem_flatMap.2 ⟨e, he, ha⟩)]
    exact stocked.totals e he

theorem makersOf_congr (same : ∀ a ∈ m.flatMap (·.2.orders), heap' a = heap a) : makersOf heap' m = makersOf heap m :=
  List.flatMap_congr fun e he => makersAt_congr fun a ha => same a (List.mem_flatMap.2 ⟨e, he, ha⟩)

/-- The levels that a taker crosses, from the best outward. -/
def crossed (taker : OrderState) (m : SideMap) : SideMap := m.takeWhile fun entry => Crosses taker entry.1

/-- The trades of a taker with a side map. -/
def trades (taker : OrderState) (heap : Heap) (m : SideMap) : List Taken := takenFrom taker (makersOf heap (crossed taker m))

theorem crossed_cons {taker : OrderState} (cross : Crosses taker entry.1) :
    crossed taker (entry :: m) = entry :: crossed taker m := by
  rw [crossed, List.takeWhile_cons, if_pos (decide_eq_true cross)]
  rfl

theorem crossed_beyond {taker : OrderState} (beyond : ¬Crosses taker entry.1) : crossed taker (entry :: m) = [] := by
  rw [crossed, List.takeWhile_cons, if_neg (by simpa using beyond)]

theorem crossed_left (taker : OrderState) (makers : List Maker) (m : SideMap) : crossed (takerLeft taker makers) m = crossed taker m := by
  rw [takerLeft_terms]
  rfl

/-- What the loop of `match` does to a side map. -/
structure Walked (heap : Heap) (m : SideMap) (ts : List Taken) (heap' : Heap) (walked remaining : SideMap) : Prop where
  levels : walked ++ remaining = m.map (stripped ts)
  emptied : ∀ entry ∈ walked, entry.2.orders = []
  standing : ∀ entry ∈ remaining, entry.2.orders ≠ []
  idle : ts = [] → walked = []
  traded : Traded heap heap' ts
  totals : Totalled heap' (m.map (stripped ts))
  /-- a maker that is not used up is the first that remains -/
  front : ∀ t ∈ ts, t.usesUp = false → (remaining.head?.bind fun entry => entry.2.orders.head?) = some t.maker.node

theorem Walked.stop (stocked : Stocked heap m) : Walked heap m [] heap [] m := by
  have same : m.map (stripped []) = m := by
    conv_rhs => rw [← List.map_id m]
    exact List.map_congr_left fun entry _ => stripped_apart fun a ha => absurd ha List.not_mem_nil
  refine ⟨same.symm, by simp, stocked.filled, fun _ => rfl, Traded.refl heap, ?_, by simp⟩
  rw [same]
  exact stocked.totals

/-- The trades with the first level. -/
structure First (heap : Heap) (entry : Price × PriceLevel) (m : SideMap) (ts : List Taken) (heap' : Heap) : Prop where
  served : Served heap entry.1 entry.2.orders ts heap'
  own : ∀ a ∈ ts.map (·.maker.node), a ∈ entry.2.orders
  stocked : Stocked heap (entry :: m)

theorem First.apart {e : Price × PriceLevel} (first : First heap entry m ts heap') (member : e ∈ m) : Apart ts e.2.orders :=
  fun a ha there => first.stocked.cons.2.2 a (first.own a ha) (List.mem_flatMap.2 ⟨e, member, there⟩)

theorem First.rest (first : First heap entry m ts heap') : ∀ a ∈ m.flatMap (·.2.orders), heap' a = heap a :=
  fun a ha => first.served.traded.others a fun traded => first.stocked.cons.2.2 a (first.own a traded) ha

theorem First.total (first : First heap entry m ts heap') :
    (stripped ts entry).2.totalRemaining =
      ((makersAt heap' entry.1 (stripped ts entry).2.orders).map (·.order.leavesQty)).sum := by
  rw [stripped_own first.own]
  show entry.2.totalRemaining - _ = _
  rw [first.stocked.totals entry List.mem_cons_self, first.served.sums, add_sub_cancel_right]

/-- The loop stops at a level that the taker did not use up. -/
theorem First.part (first : First heap entry m ts heap') (some : (stripped ts entry).2.orders ≠ []) :
    Walked heap (entry :: m) ts heap' [] (stripped ts entry :: m) := by
  have same : m.map (stripped ts) = m := by
    conv_rhs => rw [← List.map_id m]
    exact List.map_congr_left fun e he => stripped_apart (first.apart he)
  obtain ⟨-, rest, -⟩ := first.stocked.cons
  refine ⟨by rw [List.map_cons, same]; rfl, by simp, ?_, fun _ => rfl, first.served.traded, ?_, ?_⟩
  · exact List.forall_mem_cons.2 ⟨some, rest.filled⟩
  · rw [List.map_cons, same]
    exact List.forall_mem_cons.2 ⟨first.total, (rest.congr first.rest).totals⟩
  · exact first.served.front

/-- The loop walks past a level that the taker used up. -/
theorem First.walk {heap'' : Heap} {walked remaining : SideMap} (first : First heap entry m ts heap') (busy : ts ≠ [])
    (empty : (stripped ts entry).2.orders = []) (next : Walked heap' m ts' heap'' walked remaining)
    (beyond : Apart ts' entry.2.orders) :
    Walked heap (entry :: m) (ts ++ ts') heap'' (stripped ts entry :: walked) remaining := by
  have here : stripped (ts ++ ts') entry = stripped ts entry := stripped_append_left beyond
  have there : m.map (stripped (ts ++ ts')) = m.map (stripped ts') :=
    List.map_congr_left fun e he => stripped_append_right (first.apart he)
  have levels : (entry :: m).map (stripped (ts ++ ts')) = stripped ts entry :: m.map (stripped ts') := by
    rw [List.map_cons, here, there]
  refine ⟨?_, ?_, next.standing, fun none => absurd (List.append_eq_nil_iff.1 none).1 busy, ?_, ?_, ?_⟩
  · rw [levels, ← next.levels]
    rfl
  · exact List.forall_mem_cons.2 ⟨empty, next.emptied⟩
  · exact first.served.traded.append next.traded fun a ha there => beyond a there (first.own a ha)
  · rw [levels]
    refine List.forall_mem_cons.2 ⟨?_, next.totals⟩
    have total := first.total
    rw [empty] at total ⊢
    exact total
  · intro t ht left
    rcases List.mem_append.1 ht with ht | ht
    · have front := first.served.front t ht left
      rw [stripped_own first.own] at empty
      rw [show entry.2.orders.filter _ = [] from empty] at front
      cases front
    · exact next.front t ht left

/-- A taker that leaves some of a level is used up. -/
theorem taker_used {taker : OrderState} {price : Price} {nodes : List Addr} (linked : Linked heap nodes)
    (some : nodes.filter (fun a => a ∉ releasedNodes (takenFrom taker (makersAt heap price nodes))) ≠ []) :
    (takerLeft taker (makersAt heap price nodes)).leavesQty = 0 := by
  by_contra left
  refine some (List.filter_eq_nil_iff.2 fun a ha => ?_)
  have all := takenFrom_all left
  rw [← @makersAt_nodes heap price nodes linked, ← all, List.map_map] at ha
  obtain ⟨t, ht, rfl⟩ := List.mem_map.1 ha
  have used : t.usesUp = true := by
    by_contra part
    exact left (takenFrom_left taker t ht (by simpa using part)).2
  have released : t.maker.node ∈ releasedNodes (takenFrom taker (makersAt heap price nodes)) :=
    List.mem_map_of_mem (List.mem_filter.2 ⟨ht, used⟩)
  simpa using released

theorem trades_within {taker : OrderState} {a : Addr} (member : a ∈ (trades taker heap m).map (·.maker.node)) :
    a ∈ m.flatMap (·.2.orders) := by
  have among := takenFrom_nodes taker member
  obtain ⟨maker, there, rfl⟩ := List.mem_map.1 among
  obtain ⟨entry, cross, there⟩ := List.mem_flatMap.1 there
  exact List.mem_flatMap.2 ⟨entry, (List.takeWhile_sublist _).subset cross, mem_makersAt there⟩

/-- A taker that enters a level trades there, last at its price. -/
theorem takenFrom_level {taker : OrderState} {price : Price} {nodes : List Addr} (linked : Linked heap nodes) (filled : nodes ≠ [])
    (some : taker.leavesQty ≠ 0) :
    takenFrom taker (makersAt heap price nodes) ≠ [] ∧
      (takenFrom taker (makersAt heap price nodes)).getLast?.map (·.maker.price) = Option.some price := by
  have busy : takenFrom taker (makersAt heap price nodes) ≠ [] := by
    obtain ⟨node, nodes, rfl⟩ := List.exists_cons_of_ne_nil filled
    obtain ⟨order, slot, -⟩ := linked.cons
    rw [makersAt_cons slot, takenFrom_cons some]
    exact List.cons_ne_nil _ _
  have last := List.getLast?_eq_some_getLast busy
  have member := (takenFrom_makers taker).subset (List.mem_map_of_mem (List.mem_of_getLast? last))
  rw [last]
  exact ⟨busy, congrArg Option.some (makersAt_price member)⟩

/-- **The loop of `match`** trades with the makers of the levels that cross, in order. -/
theorem matchWalk_taken (disposes : Disposes cb) : ∀ (m : SideMap) (taker : OrderState) (result : ExecutionSummary) (heap : Heap)
    (env : σ) (calls : List Call), Stocked heap m →
    ∃ heap' env' walked remaining, matchWalk (recording cb) crosses m taker result heap (env, calls) =
        .ok ⟨walked, remaining, takerLeft taker (makersOf heap (crossed taker m)),
          ⟨result.trades + (trades taker heap m).length,
            ((trades taker heap m).getLast?.map (·.maker.price)).or result.lastTraded⟩,
          heap', (env', calls ++ callsFor (trades taker heap m))⟩ ∧
      Walked heap m (trades taker heap m) heap' walked remaining := by
  intro m
  induction m with
  | nil =>
    intro taker result heap env calls stocked
    refine ⟨heap, env, [], [], ?_, Walked.stop stocked⟩
    simp [matchWalk, crossed, makersOf, takerLeft, trades, takenFrom, callsFor]
  | cons entry m ih =>
    intro taker result heap env calls stocked
    obtain ⟨price, level⟩ := entry
    obtain ⟨linked, rest, apart⟩ := stocked.cons
    by_cases enters : taker.leavesQty > 0 ∧ crosses taker price = true
    · have makers : makersOf heap (crossed taker ((price, level) :: m)) =
          makersAt heap price level.orders ++ makersOf heap (crossed taker m) := by
        rw [crossed_cons (crosses_iff.1 enters.2)]
        exact List.flatMap_cons
      have some : taker.leavesQty ≠ 0 := UInt64.pos_iff_ne_zero.1 enters.1
      obtain ⟨busy, last⟩ := @takenFrom_level _ _ price _ linked (stocked.filled _ List.mem_cons_self) some
      obtain ⟨heap', env', turn, served⟩ :=
        consumeLevel_taken disposes price level.orders level.totalRemaining taker heap env calls linked
      generalize hts : takenFrom taker (makersAt heap price level.orders) = ts at *
      have own : ∀ a ∈ ts.map (·.maker.node), a ∈ level.orders := by
        intro a ha
        rw [← hts] at ha
        obtain ⟨maker, there, rfl⟩ := List.mem_map.1 (takenFrom_nodes taker ha)
        exact mem_makersAt there
      have first : First heap (price, level) m ts heap' := ⟨served, own, stocked⟩
      generalize hleft : takerLeft taker (makersAt heap price level.orders) = left at *
      have same : makersOf heap (crossed taker m) = makersOf heap' (crossed left m) := by
        rw [← hleft, crossed_left]
        refine (makersOf_congr fun a ha => first.rest a ?_).symm
        obtain ⟨e, he, ha⟩ := List.mem_flatMap.1 ha
        exact List.mem_flatMap.2 ⟨e, (List.takeWhile_sublist _).subset he, ha⟩
      have all : trades taker heap ((price, level) :: m) = ts ++ trades left heap' m := by
        rw [trades, makers, takenFrom_append, hts, hleft, same]
        rfl
      rw [makers, takerLeft_append, hleft, same, all]
      have count : ts.length > 0 := List.length_pos_iff.2 busy
      by_cases empty : (stripped ts (price, level)).2.orders = []
      · obtain ⟨heap'', env'', walked, remaining, next, rest⟩ := ih left ⟨result.trades + ts.length, Option.some price⟩ heap' env'
          (calls ++ callsFor ts) (rest.congr first.rest)
        have beyond : Apart (trades left heap' m) level.orders := fun a ha here => apart a here (trades_within ha)
        refine ⟨heap'', env'', _, remaining, ?_, first.walk busy empty rest beyond⟩
        rw [stripped_own own] at empty ⊢
        rw [matchWalk, if_pos enters, turn]
        simp only [bind, Except.bind, count, if_true, next, pure, Except.pure, List.length_append, List.getLast?_append,
          callsFor_append, List.append_assoc, Nat.add_assoc, Option.map_or, Option.or_assoc]
        rw [if_pos empty, last]
        rfl
      · have used : left.leavesQty = 0 := by
          rw [← hleft]
          refine taker_used linked ?_
          rw [stripped_own own] at empty
          rwa [hts]
        have none : trades left heap' m = [] := takenFrom_empty used
        rw [none, takerLeft_empty used, List.append_nil]
        refine ⟨heap', env', [], _, ?_, first.part empty⟩
        rw [stripped_own own] at empty ⊢
        rw [matchWalk, if_pos enters, turn, last]
        simp only [bind, Except.bind, count, if_true, empty, if_false, pure, Except.pure]
        rfl
    · have stops : taker.leavesQty = 0 ∨ crossed taker ((price, level) :: m) = [] := by
        rcases not_and_or.1 enters with empty | beyond
        · exact .inl (by rwa [gt_iff_lt, UInt64.pos_iff_ne_zero, not_not] at empty)
        · exact .inr (crossed_beyond fun cross => beyond (crosses_iff.2 cross))
      have none : trades taker heap ((price, level) :: m) = [] := by
        rcases stops with empty | beyond
        · exact takenFrom_empty empty
        · rw [trades, beyond]
          rfl
      have same : takerLeft taker (makersOf heap (crossed taker ((price, level) :: m))) = taker := by
        rcases stops with empty | beyond
        · exact takerLeft_empty empty
        · rw [beyond]
          rfl
      refine ⟨heap, env, [], (price, level) :: m, ?_, ?_⟩
      · rw [matchWalk, if_neg enters, none, same]
        simp [callsFor]
      · rw [none]
        exact Walked.stop stocked

end Walks

section Postcondition

variable {σ : Type} {cb : Callbacks σ} {heap heap' : Heap} {taker : OrderState} {m : SideMap} {ts : List Taken}

/-- The trades that `on_trade` was called with. -/
def tradedCalls (calls : List Call) : List TradeCall :=
  calls.filterMap fun
    | .traded call => some call
    | .released _ _ => none

/-- The nodes that `on_release` was called with. -/
def releasedCalls (calls : List Call) : List Addr :=
  calls.filterMap fun
    | .traded _ => none
    | .released node _ => some node

/-- A trade at the price of the maker's level, for the lesser of what both have
left, that the one on the buying side buys from the other. -/
structure Settles (t : Taken) (trade : MarketData.Trade) : Prop where
  price : trade.price = t.maker.price
  quantity : trade.quantity = min t.taker.leavesQty t.maker.order.leavesQty
  buyer : trade.buyer = some (if t.taker.side = .buy then t.taker.clOrdId else t.maker.order.clOrdId)
  seller : trade.seller = some (if t.taker.side = .buy then t.maker.order.clOrdId else t.taker.clOrdId)
  securityId : trade.securityId = t.taker.securityId

/-- What `match` leaves of a side map when a taker trades with `makers`. -/
structure MatchedWith (makers : List Maker) (taker : OrderState) (heap : Heap) (m : SideMap) (result : ExecutionSummary)
    (m' : SideMap) (taker' : OrderState) (heap' : Heap) (calls : List Call) : Prop where
  called : calls = callsFor (takenFrom taker makers)
  traded : tradedCalls calls = (takenFrom taker makers).map (·.call)
  settled : List.Forall₂ (fun t call => Settles t call.event) (takenFrom taker makers) (tradedCalls calls)
  total : ((tradedCalls calls).map (·.event.quantity.toNat)).sum = min taker.leavesQty.toNat (leavesTotal makers)
  quantity : takenTotal (takenFrom taker makers) = min taker.leavesQty.toNat (leavesTotal makers)
  left : taker.leavesQty.toNat = taker'.leavesQty.toNat + takenTotal (takenFrom taker makers) ∧
    taker' = { taker with leavesQty := taker'.leavesQty }
  released : releasedCalls calls = releasedNodes (takenFrom taker makers) ∧ (releasedCalls calls).Nodup
  levels : m' = (m.map (stripped (takenFrom taker makers))).filter fun entry => entry.2.orders ≠ []
  slots : Traded heap heap' (takenFrom taker makers)
  /-- only the last maker may have something left, and then it is the first that remains -/
  reduced : ∀ t ∈ takenFrom taker makers, t.usesUp = false →
    (takenFrom taker makers).getLast? = some t ∧
      (m'.head?.bind fun entry => entry.2.orders.head?) = some t.maker.node
  totals : Totalled heap' m'
  summary : result = ⟨(takenFrom taker makers).length, (takenFrom taker makers).getLast?.map (·.maker.price)⟩

theorem tradedCalls_callsFor : tradedCalls (callsFor ts) = ts.map (·.call) := by
  induction ts with
  | nil => rfl
  | cons t ts ih =>
    rw [show callsFor (t :: ts) = callsFor [t] ++ callsFor ts from @callsFor_append [t] ts, tradedCalls, List.filterMap_append]
    rw [tradedCalls] at ih
    rw [ih, List.map_cons]
    cases used : t.usesUp <;> simp [callsFor, used]

theorem settles_call (t : Taken) : Settles t t.call.event := by
  cases side : t.taker.side <;> exact ⟨rfl, rfl, by simp [Taken.call, tradeOf, partyOn, side],
    by simp [Taken.call, tradeOf, partyOn, side], rfl⟩

theorem releasedCalls_callsFor : releasedCalls (callsFor ts) = releasedNodes ts := by
  induction ts with
  | nil => rfl
  | cons t ts ih =>
    rw [show callsFor (t :: ts) = callsFor [t] ++ callsFor ts from @callsFor_append [t] ts, releasedCalls,
      List.filterMap_append]
    rw [releasedCalls] at ih
    rw [ih]
    cases used : t.usesUp <;> simp [callsFor, releasedNodes, used]

theorem makersOf_sublist : ((makersOf heap m).map (·.node)).Sublist (m.flatMap (·.2.orders)) := by
  induction m with
  | nil => exact List.Sublist.refl _
  | cons entry m ih =>
    rw [makersOf, List.flatMap_cons, List.map_append, List.flatMap_cons]
    exact makersAt_sublist.append ih

/-- No maker trades twice. -/
theorem trades_once (stocked : Stocked heap m) : ((trades taker heap m).map (·.maker.node)).Nodup := by
  have makers : ((trades taker heap m).map (·.maker)).Sublist (makersOf heap m) := by
    refine (takenFrom_makers taker).sublist.trans ?_
    exact (List.takeWhile_sublist _).flatMap _
  have nodes := (makers.map (·.node)).trans makersOf_sublist
  rw [List.map_map] at nodes
  exact stocked.nodes.once.sublist nodes

/-- The loop walked past the levels that it emptied, and past no other. -/
theorem Walked.remaining {walked remaining : SideMap} (walk : Walked heap m ts heap' walked remaining) :
    (m.map (stripped ts)).filter (fun entry => entry.2.orders ≠ []) = remaining := by
  rw [← walk.levels, List.filter_append, List.filter_eq_nil_iff.2 fun e he => by simpa using walk.emptied e he,
    List.nil_append]
  exact List.filter_eq_self.2 fun e he => decide_eq_true (walk.standing e he)

/-- What the loop leaves is what `match` leaves. -/
theorem Walked.matched {walked remaining : SideMap} (stocked : Stocked heap m)
    (walk : Walked heap m (trades taker heap m) heap' walked remaining) :
    MatchedWith (makersOf heap (crossed taker m)) taker heap m
      ⟨(trades taker heap m).length, (trades taker heap m).getLast?.map (·.maker.price)⟩ remaining
      (takerLeft taker (makersOf heap (crossed taker m))) heap' (callsFor (trades taker heap m)) where
  called := rfl
  traded := tradedCalls_callsFor
  settled := by
    rw [tradedCalls_callsFor, List.forall₂_map_right_iff]
    exact List.forall₂_same.2 fun t _ => settles_call t
  total := by
    rw [tradedCalls_callsFor, List.map_map]
    exact takenTotal_eq taker
  quantity := takenTotal_eq taker
  left := by
    have total := @takenTotal_eq (makersOf heap (crossed taker m)) taker
    have left := @takerLeft_toNat (makersOf heap (crossed taker m)) taker
    refine ⟨?_, takerLeft_terms taker⟩
    omega
  released := by
    have sub : (releasedNodes (trades taker heap m)).Sublist ((trades taker heap m).map (·.maker.node)) :=
      List.filter_sublist.map _
    rw [releasedCalls_callsFor]
    exact ⟨rfl, (trades_once stocked).sublist sub⟩
  levels := walk.remaining.symm
  slots := walk.traded
  reduced := fun t ht left => ⟨(takenFrom_left taker t ht left).1, walk.front t ht left⟩
  totals := by
    intro entry he
    rw [← walk.remaining] at he
    exact walk.totals entry (List.mem_of_mem_filter he)
  summary := rfl

/-- **What `match` does**, whatever the callbacks do as long as `on_release`
disposes of the node it is given: on any side map whose levels are filled with
orders that have something left and have their totals, the taker trades with
the makers of the levels that it crosses. -/
theorem match_postcondition (cb : Callbacks σ) (disposes : Disposes cb) (m : SideMap) (taker : OrderState) (heap : Heap) (env : σ)
    (stocked : Stocked heap m) :
    ∃ result m' taker' heap' env' calls,
      matchSide (recording cb) crosses m taker heap (env, []) = .ok (result, m', taker', heap', (env', calls)) ∧
      MatchedWith (makersOf heap (m.takeWhile fun entry => Crosses taker entry.1)) taker heap m result m' taker' heap' calls := by
  obtain ⟨heap', env', walked, remaining, run, walk⟩ := matchWalk_taken disposes m taker {} heap env [] stocked
  refine ⟨_, remaining, _, heap', env', _, ?_, walk.matched stocked⟩
  rw [matchSide, run]
  simp only [bind, Except.bind, List.nil_append, Nat.zero_add, Option.or_none, pure, Except.pure]
  by_cases idle : trades taker heap m = []
  · rw [walk.idle idle, List.nil_append, ite_self]
  · rw [if_pos (List.length_pos_iff.2 idle)]

end Postcondition

/-- The callbacks of the engine dispose of the node they are given. -/
theorem engine_disposes : Disposes engineCallbacks := by
  intro node n heap core slot free
  refine ⟨Function.update heap node none, { core.eraseIndex n.data.key with nodePool := .free node :: core.nodePool }, ?_,
    fun a other => Function.update_of_ne other none heap⟩
  simp only [engineCallbacks, onRelease, deref, slot, bind, Except.bind, releaseNode, free]
  rfl

/-- An ask of Bob's that rests. -/
def restingAsk (clOrdId : ClOrdId) (price : Price) (qty : Quantity) : OrderState :=
  makeOrderState (makeNewOrderSingle bob clOrdId .sell price qty)

/-- Three asks, two at 10 and one at 12. -/
def threeAsks : SideMap := [(10, ⟨[1, 2], 80⟩), (12, ⟨[3], 100⟩)]

def threeAsksHeap : Heap
  | 1 => some ⟨true, restingAsk 1 10 50⟩
  | 2 => some ⟨true, restingAsk 2 10 30⟩
  | 3 => some ⟨true, restingAsk 3 12 100⟩
  | _ => none

theorem threeAsks_stocked : Stocked threeAsksHeap threeAsks where
  filled := by decide
  nodes := by
    refine ⟨by decide, ?_⟩
    show ∀ node ∈ [1, 2, 3], _
    simp only [List.forall_mem_cons, List.not_mem_nil, false_imp_iff, implies_true, and_true]
    exact ⟨⟨_, rfl, by decide⟩, ⟨_, rfl, by decide⟩, ⟨_, rfl, by decide⟩⟩
  totals := by
    unfold Totalled
    decide

/-- Alice buys 100 at up to 12: the asks at 10, and 20 of the one at 12. -/
theorem match_postcondition_threeAsks :
    ∃ result m' taker' heap' env' calls,
      matchSide (recording engineCallbacks) crosses threeAsks (makeOrderState (makeNewOrderSingle alice 9 .buy 12 100)) threeAsksHeap
        (⟨[], fun _ => none, {}⟩, []) = .ok (result, m', taker', heap', (env', calls)) ∧
      result = ⟨3, some 12⟩ ∧ m' = [(12, ⟨[3], 80⟩)] ∧ releasedCalls calls = [1, 2] ∧
      (tradedCalls calls).map (fun call => (call.event.price, call.event.quantity, call.event.buyer, call.event.seller)) =
        [(10, 50, some 9, some 1), (10, 30, some 9, some 2), (12, 20, some 9, some 3)] ∧
      ((tradedCalls calls).map (·.event.quantity.toNat)).sum = 100 := by
  obtain ⟨result, m', taker', heap', env', calls, run, matched⟩ := match_postcondition engineCallbacks engine_disposes threeAsks
    (makeOrderState (makeNewOrderSingle alice 9 .buy 12 100)) threeAsksHeap ⟨[], fun _ => none, {}⟩ threeAsks_stocked
  refine ⟨result, m', taker', heap', env', calls, run, matched.summary.trans ?_, matched.levels.trans ?_,
    matched.released.1.trans ?_, (congrArg (List.map _) matched.traded).trans ?_, matched.total.trans ?_⟩ <;> decide

end DemoExchange.Properties
