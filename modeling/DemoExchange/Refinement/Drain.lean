import DemoExchange.Refinement.Match

/-!
# Draining the books

`flush` walks every level of every side and gives back each node it meets.
What is drained of a side is what the matching loop takes off it when every
order is used up, so the loop over a level is the same induction on the front
bucket; a book drained leaves the items of the other symbols.
-/

namespace DemoExchange.Refinement
set_option autoImplicit false
open OrderEntry MatchingEngine Reference Pool Engine

/-- Nodes of one side of one symbol have been given back, and nothing was emitted. -/
structure Drained (symbol : Symbol) (side : Side) (core : Core) (items : List Item) (heap' : Heap) (core' : Core)
    (items' : List Item) : Prop where
  tracks : Tracks heap' core' items'
  sent : core'.out = core.out
  fewer : List.Sublist items' items
  others : ∀ symbol' side', ¬(symbol' = symbol ∧ side' = side) →
    sideItems items' symbol' side' = sideItems items symbol' side'

section Draining

variable {symbol : Symbol} {side : Side} {heap heap' heap'' : Heap} {core core' core'' : Core}
  {items items' items'' : List Item} {price : Price} {i : Item} {g : List (Price × List Item)}

theorem Drained.refl (tracks : Tracks heap core items) : Drained symbol side core items heap core items :=
  ⟨tracks, rfl, List.Sublist.refl _, fun _ _ _ => rfl⟩

theorem Drained.trans (first : Drained symbol side core items heap' core' items')
    (second : Drained symbol side core' items' heap'' core'' items'') :
    Drained symbol side core items heap'' core'' items'' where
  tracks := second.tracks
  sent := second.sent.trans first.sent
  fewer := second.fewer.trans first.fewer
  others := fun s sd apart => (second.others s sd apart).trans (first.others s sd apart)

/-- One node given back. -/
theorem Drained.one (tracks : Tracks heap core items) (hi : i ∈ sideItems items symbol side) :
    Drained symbol side core items (Function.update heap i.1 none) (releasedCore core i.1 i.2.order.key)
      (without i.2.arrival items) :=
  ⟨tracks.release (mem_sideItems.1 hi).1, rfl, List.filter_sublist, fun _ _ => sideItems_without_other tracks hi⟩

/-- One turn of the loop over a level. -/
theorem drainLevel_cons (slot : heap i.1 = some ⟨true, i.2.order⟩) (rest : List Addr) :
    drainLevel (i.1 :: rest) heap core =
      drainLevel rest (Function.update heap i.1 none) (releasedCore core i.1 i.2.order.key) := by
  conv_lhs => rw [drainLevel]
  simp only [deref, slot, bind, Except.bind, unlink, if_true, releaseNode, Function.update_self, Function.update_idem,
    Bool.false_eq_true, if_false]
  rfl

/-- **The loop over a level**, by induction on its FIFO, gives back every node of it. -/
theorem drainLevel_spec (bucket : List Item) : ∀ {heap : Heap} {core : Core} {items : List Item},
    Tracks heap core items → Buckets.Front (before side) itemPrice price bucket g (sideItems items symbol side) →
    ∃ heap' core' items', drainLevel (bucket.map Prod.fst) heap core = .ok (heap', core') ∧
      Drained symbol side core items heap' core' items' ∧
      Buckets.Of (before side) itemPrice g (sideItems items' symbol side) := by
  induction bucket with
  | nil =>
    intro heap core items tracks front
    exact ⟨heap, core, items, rfl, Drained.refl tracks, front.used⟩
  | cons i bucket ih =>
    intro heap core items tracks front
    have hi := (front_head front).1
    have first := Drained.one tracks hi
    obtain ⟨heap', core', items', ran, drained, buckets⟩ := ih first.tracks (front_used tracks front)
    refine ⟨heap', core', items', ?_, first.trans drained, buckets⟩
    rw [List.map_cons, drainLevel_cons (tracks.heap_eq (mem_sideItems.1 hi).1), ran]

/-- The loop over the levels of a side, by induction on them. -/
theorem drainSide_buckets (g : List (Price × List Item)) : ∀ {heap : Heap} {core : Core} {items : List Item},
    Tracks heap core items → Buckets.Of (before side) itemPrice g (sideItems items symbol side) →
    ∃ heap' core' items', drainSide (render g) heap core = .ok (heap', core') ∧
      Drained symbol side core items heap' core' items' ∧ sideItems items' symbol side = [] := by
  induction g with
  | nil =>
    intro heap core items tracks buckets
    exact ⟨heap, core, items, rfl, Drained.refl tracks, buckets.eq_nil⟩
  | cons x g ih =>
    intro heap core items tracks buckets
    obtain ⟨price, bucket⟩ := x
    have some : bucket.map Prod.fst ≠ [] := by
      rw [ne_eq, List.map_eq_nil_iff]
      exact buckets.nonempty _ List.mem_cons_self
    obtain ⟨heap', core', items', ran, first, buckets'⟩ := drainLevel_spec bucket tracks buckets.open
    obtain ⟨heap'', core'', items'', ran', second, empty⟩ := ih first.tracks buckets'
    refine ⟨heap'', core'', items'', ?_, first.trans second, empty⟩
    rw [render, List.map_cons, ← render]
    simp only [Prod.map, id, drainSide, levelOf, if_neg some, bind, Except.bind, ran, ran']

/-- **A side drained** holds nothing. -/
theorem drainSide_spec {m : SideMap} (tracks : Tracks heap core items)
    (h : Renders side m (sideItems items symbol side)) :
    ∃ heap' core' items', drainSide m heap core = .ok (heap', core') ∧
      Drained symbol side core items heap' core' items' ∧ sideItems items' symbol side = [] := by
  obtain ⟨g, buckets, rfl⟩ := h
  exact drainSide_buckets g tracks buckets

/-- What is empty stays empty when more is drained. -/
theorem sideItems_nil {symbol : Symbol} {side : Side} (fewer : List.Sublist items' items)
    (empty : sideItems items symbol side = []) : sideItems items' symbol side = [] := by
  have sub := fewer.filter fun i => OnSide symbol side i.2.order
  rw [show items.filter _ = [] from empty] at sub
  exact List.sublist_nil.1 sub

/-- **All books drained**, by induction on the books. -/
theorem drainBooks_spec (books : List (Symbol × OrderBook)) : ∀ {heap : Heap} {core : Core} {items : List Item},
    Tracks heap core items → (books.map Prod.fst).Nodup →
    (∀ s b, (s, b) ∈ books → ∀ side, Renders side (b.sideMap side) (sideItems items s side)) →
    ∃ heap' core' items',
      drainBooks books heap core = .ok (books.map fun x => (x.1, ⟨[], []⟩), heap', core') ∧
      Tracks heap' core' items' ∧ core'.out = core.out ∧ List.Sublist items' items ∧
      ∀ s ∈ books.map Prod.fst, ∀ side, sideItems items' s side = [] := by
  induction books with
  | nil =>
    intro heap core items tracks _ _
    exact ⟨heap, core, items, rfl, tracks, rfl, List.Sublist.refl _, by simp⟩
  | cons x books ih =>
    intro heap core items tracks unique renders
    obtain ⟨symbol, book⟩ := x
    obtain ⟨absent, unique⟩ := List.nodup_cons.1 unique
    obtain ⟨heap₁, core₁, items₁, bids, first, noBids⟩ :=
      drainSide_spec tracks (renders symbol book List.mem_cons_self .buy)
    have asksLeft : Renders .sell book.asks (sideItems items₁ symbol .sell) := by
      rw [first.others symbol .sell fun same => by cases same.2]
      exact renders symbol book List.mem_cons_self .sell
    obtain ⟨heap₂, core₂, items₂, asks, second, noAsks⟩ := drainSide_spec first.tracks asksLeft
    have rendersRest : ∀ s b, (s, b) ∈ books → ∀ side, Renders side (b.sideMap side) (sideItems items₂ s side) := by
      intro s b hb side
      have ne : s ≠ symbol := by
        rintro rfl
        exact absent (List.mem_map.2 ⟨_, hb, rfl⟩)
      rw [second.others s side fun same => ne same.1, first.others s side fun same => ne same.1]
      exact renders s b (List.mem_cons_of_mem _ hb) side
    obtain ⟨heap', core', items', rest, tracks', sent, fewer, empty⟩ := ih second.tracks unique rendersRest
    refine ⟨heap', core', items', ?_, tracks', ?_, fewer.trans (second.fewer.trans first.fewer), ?_⟩
    · simp only [drainBooks, bind, Except.bind, show book.sideMap .buy = book.bids from rfl] at bids ⊢
      simp only [bids, asks, rest, pure, Except.pure, List.map_cons]
    · rw [sent, second.sent, first.sent]
    · intro s hs side
      rcases List.mem_cons.1 hs with rfl | hs
      · refine sideItems_nil fewer ?_
        cases side with
        | buy => exact sideItems_nil second.fewer noBids
        | sell => exact noAsks
      · exact empty s hs side

end Draining

end DemoExchange.Refinement
