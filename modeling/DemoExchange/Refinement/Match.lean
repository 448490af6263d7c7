import DemoExchange.Reference.Sweep
import DemoExchange.Refinement.Books

/-!
# The matching loop is a sweep

`match`, run by the engine on the side map of the consumed side, leaves the
slots, the index and the pool as the reference sweep leaves the live orders,
and calls `on_trade` for its fills in order. One fill is a step lemma for each
of its two outcomes; the loop over a level and the loop over the levels fold
it, with `Walked` as the invariant.
-/

namespace DemoExchange.Refinement
set_option autoImplicit false
open OrderEntry MatchingEngine Reference Pool

theorem pos_iff_ne_zero {a : UInt64} : a > 0 ↔ a ≠ 0 := by
  rw [gt_iff_lt, UInt64.lt_iff_toNat_lt, ne_eq, ← UInt64.toNat_inj, UInt64.toNat_zero]
  omega

/-- The events of the fills, to be numbered. -/
def tradeEvents (fills : List Fill) : List Emission := fills.map fun f => .trade f.call

/-- From `items` and `taker` the engine has traded `fills` against the side
`side` of `symbol` and is at `items'` and `taker'`. -/
structure Walked (symbol : Symbol) (side : Side) (core : Core) (items : List Item) (taker : OrderState)
    (fills : List Fill) (heap' : Heap) (core' : Core) (items' : List Item) (taker' : OrderState) : Prop where
  tracks : Tracks heap' core' items'
  sent : core'.out = emitAll core.out (tradeEvents fills)
  swept : sweep (items.map Prod.snd) taker = (sweep (items'.map Prod.snd) taker').after fills
  terms : Reduces taker taker'
  others : ∀ symbol' side', ¬(symbol' = symbol ∧ side' = side) →
    sideItems items' symbol' side' = sideItems items symbol' side'

theorem emitAll_append (out : Outbox) (events events' : List Emission) :
    emitAll out (events ++ events') = emitAll (emitAll out events) events' :=
  List.foldl_append

section Walks

variable {symbol : Symbol} {side : Side} {heap heap' heap'' : Heap} {core core' core'' : Core}
  {items items' items'' : List Item} {taker taker' taker'' : OrderState} {fills fills' : List Fill}

theorem Walked.refl (tracks : Tracks heap core items) :
    Walked symbol side core items taker [] heap core items taker :=
  ⟨tracks, rfl, rfl, ⟨_, rfl⟩, fun _ _ _ => rfl⟩

theorem Walked.trans (first : Walked symbol side core items taker fills heap' core' items' taker')
    (second : Walked symbol side core' items' taker' fills' heap'' core'' items'' taker'') :
    Walked symbol side core items taker (fills ++ fills') heap'' core'' items'' taker'' where
  tracks := second.tracks
  sent := by rw [second.sent, first.sent, ← emitAll_append, tradeEvents, tradeEvents, tradeEvents, List.map_append]
  swept := by rw [first.swept, second.swept, Sweep.after_after]
  terms := first.terms.trans second.terms
  others := fun s sd apart => (second.others s sd apart).trans (first.others s sd apart)

/-- The aggressor still takes the same side. -/
theorem Walked.aims (walked : Walked symbol side core items taker fills heap' core' items' taker')
    (terms : taker.symbol = symbol ∧ side = otherSide taker.side) : taker'.symbol = symbol ∧ side = otherSide taker'.side := by
  rw [walked.terms.symbol, walked.terms.side]
  exact terms

end Walks

section OneFill

variable {symbol : Symbol} {side : Side} {heap : Heap} {core : Core} {items : List Item} {taker : OrderState}
  {i : Item}

/-- The quantity of a fill between the aggressor and the order in its way. -/
abbrev fillQty (taker : OrderState) (i : Item) : Quantity := min taker.leavesQty i.2.order.leavesQty

/-- The core after `on_trade` for that fill. -/
abbrev tradedCore (core : Core) (taker : OrderState) (i : Item) : Core :=
  { core with out := emit core.out (.trade (Fill.call ⟨taker, i.2.order⟩)) }

theorem sideItems_rewrite (arrival : Nat) (quantity : Quantity) (items : List Item) (symbol : Symbol) (side : Side) :
    sideItems (items.map (rewriteItem arrival (fillOrder · quantity))) symbol side =
      (sideItems items symbol side).map (rewriteItem arrival (fillOrder · quantity)) := by
  rw [sideItems, List.filter_map]
  congr 1
  apply List.filter_congr
  intro j _
  simp only [Function.comp, rewriteItem]
  split <;> rfl

/-- **A fill that uses up the maker**: it leaves the slots, the index and the pool. -/
theorem Walked.used (tracks : Tracks heap core items) (hi : i ∈ sideItems items symbol side)
    (terms : taker.symbol = symbol ∧ side = otherSide taker.side) (some : taker.leavesQty ≠ 0)
    (best : bestOn (items.map Prod.snd) symbol side = Option.some i.2)
    (hit : Crosses taker i.2.order.price) (used : i.2.order.leavesQty - fillQty taker i = 0) :
    Walked symbol side core items taker [⟨taker, i.2.order⟩] (Function.update heap i.1 none)
      (releasedCore (tradedCore core taker i) i.1 i.2.order.key) (without i.2.arrival items)
      (fillOrder taker (fillQty taker i)) where
  tracks := (tracks.withOut _).release (mem_sideItems.1 hi).1
  sent := rfl
  swept := by
    obtain ⟨rfl, rfl⟩ := terms
    rw [sweep_fill some best hit, settle_used used, without_live]
  terms := ⟨_, rfl⟩
  others := fun _ _ => sideItems_without_other tracks hi

/-- **A fill that uses up the aggressor**: the maker stays, reduced. -/
theorem Walked.left (tracks : Tracks heap core items) (hi : i ∈ sideItems items symbol side)
    (terms : taker.symbol = symbol ∧ side = otherSide taker.side) (some : taker.leavesQty ≠ 0)
    (best : bestOn (items.map Prod.snd) symbol side = Option.some i.2)
    (hit : Crosses taker i.2.order.price) (left : i.2.order.leavesQty - fillQty taker i ≠ 0) :
    Walked symbol side core items taker [⟨taker, i.2.order⟩]
      (Function.update heap i.1 (Option.some ⟨true, fillOrder i.2.order (fillQty taker i)⟩)) (tradedCore core taker i)
      (items.map (rewriteItem i.2.arrival (fillOrder · (fillQty taker i)))) (fillOrder taker (fillQty taker i)) where
  tracks := (tracks.withOut _).rewrite (f := fun o => fillOrder o (fillQty taker i)) (mem_sideItems.1 hi).1 rfl
  sent := rfl
  swept := by
    obtain ⟨rfl, rfl⟩ := terms
    rw [sweep_fill some best hit, settle_left left, rewriteItem_live]
    rfl
  terms := ⟨_, rfl⟩
  others := by
    intro symbol' side' apart
    rw [sideItems_rewrite]
    conv_rhs => rw [← List.map_id (sideItems items symbol' side')]
    refine List.map_congr_left fun j hj => ?_
    rw [tracks.rewritten (mem_sideItems.1 hi).1 (mem_sideItems.1 hj).1, if_neg, id]
    rintro rfl
    have here := (mem_sideItems.1 hi).2
    have there := (mem_sideItems.1 hj).2
    exact apart ⟨there.1.symm.trans here.1, there.2.symm.trans here.2⟩

/-- One turn of the loop on a maker that it uses up. -/
theorem consumeLevel_used {price : Price} {rest : List Addr} {total : Quantity} (slot : heap i.1 = Option.some ⟨true, i.2.order⟩)
    (at' : i.2.order.price = price) (some : taker.leavesQty ≠ 0) (used : i.2.order.leavesQty - fillQty taker i = 0) :
    consumeLevel engineCallbacks price (i.1 :: rest) total taker heap core =
      (consumeLevel engineCallbacks price rest (total - fillQty taker i) (fillOrder taker (fillQty taker i))
        (Function.update heap i.1 none) (releasedCore (tradedCore core taker i) i.1 i.2.order.key)).map
        fun out => { out with trades := out.trades + 1 } := by
  subst at'
  conv_lhs => rw [consumeLevel]
  rw [if_pos (pos_iff_ne_zero.2 some)]
  simp only [deref, slot, bind, Except.bind, used, if_true, unlink, Function.update_self, Function.update_idem,
    engineCallbacks, onRelease, releaseNode, Bool.false_eq_true, if_false, pure, Except.pure, makeTrade_eq, onTrade_eq]
  rfl

/-- One turn of the loop on a maker that uses up the aggressor. -/
theorem consumeLevel_left {price : Price} {rest : List Addr} {total : Quantity} (slot : heap i.1 = Option.some ⟨true, i.2.order⟩)
    (at' : i.2.order.price = price) (some : taker.leavesQty ≠ 0) (left : i.2.order.leavesQty - fillQty taker i ≠ 0) :
    consumeLevel engineCallbacks price (i.1 :: rest) total taker heap core =
      .ok ⟨⟨i.1 :: rest, total - fillQty taker i⟩, fillOrder taker (fillQty taker i), 1,
        Function.update heap i.1 (Option.some ⟨true, fillOrder i.2.order (fillQty taker i)⟩), tradedCore core taker i⟩ := by
  subst at'
  rw [consumeLevel, if_pos (pos_iff_ne_zero.2 some)]
  simp only [deref, slot, bind, Except.bind, left, if_false, engineCallbacks, pure, Except.pure, makeTrade_eq, onTrade_eq]
  rfl

end OneFill

section Loops

variable {symbol : Symbol} {side : Side} {heap : Heap} {core : Core} {items : List Item} {taker : OrderState}
  {price : Price} {i : Item} {bucket : List Item} {g : List (Price × List Item)}

/-- The head of the front bucket is an item of the side, at its price. -/
theorem front_head (front : Buckets.Front (before side) itemPrice price (i :: bucket) g (sideItems items symbol side)) :
    i ∈ sideItems items symbol side ∧ itemPrice i = price := by
  have head : i ∈ i :: bucket := List.mem_cons_self
  rw [front.front, List.mem_filter] at head
  exact ⟨head.1, of_decide_eq_true head.2⟩

/-- The orders behind the head of a bucket arrived after it. -/
theorem head_arrival (tracks : Tracks heap core items)
    (front : Buckets.Front (before side) itemPrice price (i :: bucket) g (sideItems items symbol side)) :
    ∀ j ∈ bucket, j.2.arrival ≠ i.2.arrival := by
  have sub : List.Sublist (i :: bucket) items := by
    rw [front.front]
    exact List.filter_sublist.trans List.filter_sublist
  intro j hj same
  have later := (List.pairwise_cons.1 (tracks.arrivals.sublist sub)).1 j hj
  omega

/-- Taking the head of the front bucket out of the items takes it off the bucket. -/
theorem front_used (tracks : Tracks heap core items)
    (front : Buckets.Front (before side) itemPrice price (i :: bucket) g (sideItems items symbol side)) :
    Buckets.Front (before side) itemPrice price bucket g (sideItems (without i.2.arrival items) symbol side) := by
  have member := front_head front
  have only : ∀ j ∈ sideItems items symbol side, decide (j.2.arrival ≠ i.2.arrival) = false → itemPrice j = price := by
    intro j hj same
    rw [tracks.arrival_inj (mem_sideItems.1 hj).1 (mem_sideItems.1 member.1).1 (by simpa using same)]
    exact member.2
  have tail : (i :: bucket).filter (fun j => j.2.arrival ≠ i.2.arrival) = bucket := by
    rw [List.filter_cons_of_neg (by simp)]
    exact List.filter_eq_self.2 fun j hj => decide_eq_true (head_arrival tracks front j hj)
  rw [sideItems_without, without]
  have rest := front.filter only
  rwa [tail] at rest

/-- Filling the head of the front bucket rewrites it in place. -/
theorem front_left (tracks : Tracks heap core items)
    (front : Buckets.Front (before side) itemPrice price (i :: bucket) g (sideItems items symbol side))
    (quantity : Quantity) :
    Buckets.Front (before side) itemPrice price ((i.1, { i.2 with order := fillOrder i.2.order quantity }) :: bucket) g
      (sideItems (items.map (rewriteItem i.2.arrival (fillOrder · quantity))) symbol side) := by
  have member := front_head front
  have keep : ∀ j, itemPrice (rewriteItem i.2.arrival (fillOrder · quantity) j) = itemPrice j := by
    intro j
    unfold rewriteItem
    split <;> rfl
  have only : ∀ j ∈ sideItems items symbol side, itemPrice j ≠ price →
      rewriteItem i.2.arrival (fillOrder · quantity) j = j := by
    intro j hj ne
    rw [tracks.rewritten (mem_sideItems.1 member.1).1 (mem_sideItems.1 hj).1, if_neg]
    rintro rfl
    exact ne member.2
  have tail : (i :: bucket).map (rewriteItem i.2.arrival (fillOrder · quantity)) =
      (i.1, { i.2 with order := fillOrder i.2.order quantity }) :: bucket := by
    rw [List.map_cons]
    congr 1
    · exact if_pos rfl
    · conv_rhs => rw [← List.map_id bucket]
      exact List.map_congr_left fun j hj => if_neg (head_arrival tracks front j hj)
  rw [sideItems_rewrite]
  have rest := front.map keep only
  rwa [tail] at rest

/-- A maker that is used up was taken whole. -/
theorem leavesQty_used (used : i.2.order.leavesQty - fillQty taker i = 0) : i.2.order.leavesQty = fillQty taker i := by
  rw [UInt64.sub_eq_iff_eq_add, UInt64.zero_add] at used
  exact used

theorem leavesSum_used (used : i.2.order.leavesQty - fillQty taker i = 0) :
    leavesSum (i :: bucket) - fillQty taker i = leavesSum bucket := by
  rw [leavesSum_cons, ← leavesQty_used used, UInt64.add_comm, UInt64.add_sub_cancel]

theorem leavesSum_left (quantity : Quantity) :
    leavesSum (i :: bucket) - quantity =
      leavesSum ((i.1, { i.2 with order := fillOrder i.2.order quantity }) :: bucket) := by
  rw [leavesSum_cons, leavesSum_cons]
  show _ = i.2.order.leavesQty - quantity + _
  rw [UInt64.sub_eq_add_neg, UInt64.sub_eq_add_neg, UInt64.add_assoc, UInt64.add_assoc, UInt64.add_comm (leavesSum bucket)]

/-- **The loop over one level**, by induction on its FIFO: it trades with the
orders from the front until they or the aggressor are used up. -/
theorem consumeLevel_spec (bucket : List Item) : ∀ {heap : Heap} {core : Core} {items : List Item} {taker : OrderState},
    Tracks heap core items →
    Buckets.Front (before side) itemPrice price bucket g (sideItems items symbol side) →
    (taker.symbol = symbol ∧ side = otherSide taker.side) → Crosses taker price →
    ∃ fills heap' core' items' taker' bucket',
      consumeLevel engineCallbacks price (bucket.map Prod.fst) (leavesSum bucket) taker heap core =
        .ok ⟨levelOf bucket', taker', fills.length, heap', core'⟩ ∧
      Walked symbol side core items taker fills heap' core' items' taker' ∧
      Buckets.Front (before side) itemPrice price bucket' g (sideItems items' symbol side) ∧
      (bucket' = [] ∨ taker'.leavesQty = 0) ∧
      (bucket ≠ [] → taker.leavesQty ≠ 0 → fills ≠ []) ∧ ∀ f ∈ fills, f.maker.price = price := by
  induction bucket with
  | nil =>
    intro heap core items taker tracks front terms hit
    exact ⟨[], heap, core, items, taker, [], rfl, Walked.refl tracks, front, .inl rfl, fun h => absurd rfl h, by simp⟩
  | cons i bucket ih =>
    intro heap core items taker tracks front terms hit
    have member := front_head front
    have slot := tracks.heap_eq (mem_sideItems.1 member.1).1
    have best := best_of_buckets tracks.arrivals (front.close (List.cons_ne_nil _ _))
    have hit' : Crosses taker i.2.order.price := by
      rw [show i.2.order.price = price from member.2]
      exact hit
    by_cases empty : taker.leavesQty = 0
    · refine ⟨[], heap, core, items, taker, i :: bucket, ?_, Walked.refl tracks, front, .inr empty,
        fun _ h => absurd empty h, by simp⟩
      rw [List.map_cons, consumeLevel, if_neg fun h => pos_iff_ne_zero.1 h empty]
      rfl
    by_cases used : i.2.order.leavesQty - fillQty taker i = 0
    · have first := Walked.used tracks member.1 terms empty best hit' used
      obtain ⟨fills, heap', core', items', taker', bucket', ran, walked, front', stop, -, prices⟩ :=
        @ih _ _ _ (fillOrder taker (fillQty taker i)) first.tracks (front_used tracks front) terms hit
      refine ⟨_, heap', core', items', taker', bucket', ?_, first.trans walked, front', stop, fun _ _ h => ?_, ?_⟩
      · rw [List.map_cons, consumeLevel_used slot member.2 empty used, leavesSum_used used, ran]
        rfl
      · cases h
      · intro f hf
        rcases List.mem_cons.1 hf with rfl | hf
        · exact member.2
        · exact prices f hf
    · have first := Walked.left tracks member.1 terms empty best hit' used
      refine ⟨_, _, _, _, _, (i.1, { i.2 with order := fillOrder i.2.order (fillQty taker i) }) :: bucket, ?_, first,
        front_left tracks front _, .inr (fill_exhausts used), fun _ _ h => ?_, ?_⟩
      · rw [List.map_cons, consumeLevel_left slot member.2 empty used, leavesSum_left]
        rfl
      · cases h
      · intro f hf
        rw [List.mem_singleton.1 hf]
        exact member.2

/-- The sweep has nothing to do once the walk has stopped at a bucket. -/
theorem sweep_stopped (tracks : Tracks heap core items)
    (buckets : Buckets.Of (before side) itemPrice ((price, bucket) :: g) (sideItems items symbol side))
    (terms : taker.symbol = symbol ∧ side = otherSide taker.side)
    (stop : ¬(taker.leavesQty > 0 ∧ Crosses taker price)) :
    sweep (items.map Prod.snd) taker = ⟨[], items.map Prod.snd, taker⟩ := by
  obtain ⟨rfl, rfl⟩ := terms
  by_cases empty : taker.leavesQty = 0
  · exact sweep_empty empty
  have miss : ¬Crosses taker price := fun hit => stop ⟨pos_iff_ne_zero.2 empty, hit⟩
  match bucket with
  | [] => exact absurd rfl (buckets.nonempty _ List.mem_cons_self)
  | i :: rest =>
    refine sweep_miss (best_of_buckets tracks.arrivals buckets) ?_
    have first := ((buckets.mem List.mem_cons_self).1 (List.mem_cons_self (a := i) (l := rest))).2
    rw [show i.2.order.price = price from first]
    exact miss

/-- **The walk over the levels**, by induction on the buckets: it stops where
the sweep stops. -/
theorem matchWalk_spec (g : List (Price × List Item)) : ∀ {heap : Heap} {core : Core} {items : List Item}
    {taker : OrderState} (result : ExecutionSummary), Tracks heap core items →
    Buckets.Of (before side) itemPrice g (sideItems items symbol side) →
    (taker.symbol = symbol ∧ side = otherSide taker.side) →
    ∃ fills heap' core' items' taker' g' walked,
      matchWalk engineCallbacks crosses (render g) taker result heap core =
        .ok ⟨walked, render g', taker',
          ⟨result.trades + fills.length, (fills.getLast?.map (·.maker.price)).or result.lastTraded⟩, heap', core'⟩ ∧
      Walked symbol side core items taker fills heap' core' items' taker' ∧
      Buckets.Of (before side) itemPrice g' (sideItems items' symbol side) ∧
      sweep (items'.map Prod.snd) taker' = ⟨[], items'.map Prod.snd, taker'⟩ ∧ (fills = [] → walked = []) := by
  induction g with
  | nil =>
    intro heap core items taker result tracks buckets terms
    refine ⟨[], heap, core, items, taker, [], [], rfl, Walked.refl tracks, buckets, ?_, fun _ => rfl⟩
    obtain ⟨rfl, rfl⟩ := terms
    exact sweep_none (best_of_empty buckets)
  | cons x g ih =>
    intro heap core items taker result tracks buckets terms
    obtain ⟨price, bucket⟩ := x
    by_cases go : taker.leavesQty > 0 ∧ crosses taker price = true
    · obtain ⟨fills, heap', core', items', taker', bucket', consumed, walked, front, stop, traded, prices⟩ :=
        consumeLevel_spec bucket tracks buckets.open terms (crosses_iff.1 go.2)
      have some : fills ≠ [] := traded (buckets.nonempty _ List.mem_cons_self) (pos_iff_ne_zero.1 go.1)
      have positive : fills.length > 0 := List.length_pos_iff.2 some
      have last : fills.getLast?.map (·.maker.price) = Option.some price := by
        rw [List.getLast?_eq_getLast_of_ne_nil some, Option.map_some, prices _ (List.getLast_mem some)]
      by_cases used : bucket' = []
      · subst used
        obtain ⟨fills', heap'', core'', items'', taker'', g', w, ran, walked', buckets', done, -⟩ :=
          ih ⟨result.trades + fills.length, Option.some price⟩ walked.tracks front.used (walked.aims terms)
        refine ⟨fills ++ fills', heap'', core'', items'', taker'', g', (price, levelOf []) :: w, ?_,
          walked.trans walked', buckets', done, fun h => absurd (List.append_eq_nil_iff.1 h).1 some⟩
        rw [render, List.map_cons, ← render]
        simp only [Prod.map, id, matchWalk, if_pos go, levelOf] at consumed ran ⊢
        simp only [consumed, bind, Except.bind, positive, if_true, List.map_nil, ran, pure, Except.pure,
          List.length_append, Nat.add_assoc]
        congr 3
        cases fills' with
        | nil => simp [last]
        | cons f fills' => simp [List.getLast?_append, List.getLast?_cons]
      · have spent : taker'.leavesQty = 0 := stop.resolve_left used
        refine ⟨fills, heap', core', items', taker', (price, bucket') :: g, [], ?_, walked, front.close used,
          sweep_empty spent, fun _ => rfl⟩
        rw [render, List.map_cons, ← render]
        simp only [Prod.map, id, matchWalk, if_pos go, levelOf] at consumed ⊢
        simp only [consumed, bind, Except.bind, positive, if_true, List.map_eq_nil_iff, used, if_false, pure,
          Except.pure, last, Option.some_or]
        rfl
    · refine ⟨[], heap, core, items, taker, (price, bucket) :: g, [], ?_, Walked.refl tracks, buckets,
        sweep_stopped tracks buckets terms (fun h => go ⟨h.1, crosses_iff.2 h.2⟩), fun _ => rfl⟩
      rw [render, List.map_cons]
      simp only [Prod.map, id, matchWalk, if_neg go]
      rfl

/-- **`match` is a sweep**: from a side map that renders the side consumed, it
returns the number of fills and the price of the last, and leaves the nodes and
the side map of what the sweep leaves live. -/
theorem matchSide_spec {m : SideMap} (tracks : Tracks heap core items) (h : Renders side m (sideItems items symbol side))
    (terms : taker.symbol = symbol ∧ side = otherSide taker.side) :
    ∃ heap' core' items' m',
      matchSide engineCallbacks crosses m taker heap core =
        .ok (⟨(sweep (items.map Prod.snd) taker).fills.length,
            (sweep (items.map Prod.snd) taker).fills.getLast?.map (·.maker.price)⟩,
          m', (sweep (items.map Prod.snd) taker).taker, heap', core') ∧
      Tracks heap' core' items' ∧ items'.map Prod.snd = (sweep (items.map Prod.snd) taker).live ∧
      core'.out = emitAll core.out (tradeEvents (sweep (items.map Prod.snd) taker).fills) ∧
      Renders side m' (sideItems items' symbol side) ∧
      ∀ symbol' side', ¬(symbol' = symbol ∧ side' = side) →
        sideItems items' symbol' side' = sideItems items symbol' side' := by
  obtain ⟨g, buckets, rfl⟩ := h
  obtain ⟨fills, heap', core', items', taker', g', walked, ran, w, buckets', done, kept⟩ :=
    matchWalk_spec g {} tracks buckets terms
  have swept := w.swept
  rw [done] at swept
  simp only [Sweep.after, List.append_nil] at swept
  rw [swept]
  refine ⟨heap', core', items', render g', ?_, w.tracks, rfl, w.sent, ⟨g', buckets', rfl⟩, w.others⟩
  simp only [matchSide, ran, bind, Except.bind, pure, Except.pure, Nat.zero_add, Option.or_none]
  cases fills with
  | nil => simp [kept rfl]
  | cons f fills => simp

end Loops

end DemoExchange.Refinement
