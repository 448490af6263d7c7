import DemoExchange.Properties.Agreement
import DemoExchange.Properties.Conservation
import DemoExchange.Reference.Feed

/-!
# The feed determines the top of book

A client that keeps the last book update of a security and a side knows the
best level of that side of the engine's book.
-/

namespace DemoExchange.Properties
set_option autoImplicit false
open OrderEntry MatchingEngine Reference Refinement

/-- The feed does not depend on the ids. -/
theorem published_unnumbered (securityId : SecurityId) (side : MarketData.Side) (log : List Emission) :
    published securityId side (log.map unnumbered) = published securityId side log := by
  rw [published, List.foldl_map]
  congr 1
  funext last event
  cases event with
  | marketData message => rfl
  | trade call => rfl
  | orderEntry event => cases event <;> rfl

/-- **Top of book.** After any requests without a flush, the last book update
with a symbol's security id and a side carries the price and the total of the
best level of that side of its book, or neither when the side is empty; the
security id is any that the requests send with that symbol and with no other. -/
theorem feed_shows_top (alloc : Pool.Allocator) (configuration : EngineConfig) (requests : List Request)
    (audible : ∀ request ∈ requests, request ≠ .flush) :
    ∃ e trace, Engine.run alloc configuration requests = .ok (e, trace) ∧
      ∀ entry ∈ e.books, ∀ securityId, (∀ request ∈ requests, Labelled entry.1 securityId request) →
        ∀ side, published securityId (marketSide side) (logOf trace) = shown (entry.2.bestLevel side) := by
  obtain ⟨e, ran, ⟨items, h⟩, -⟩ := engine_run alloc configuration requests
  refine ⟨e, _, ran, ?_⟩
  rintro ⟨symbol, book⟩ hb securityId label side
  have fed := run_fed configuration requests symbol securityId audible label
  rw [h.bestLevel hb, ← published_unnumbered, logOf_unnumbered, fed.top side, run_unnumbered]

/-- The aggressor at 10 takes the only bid, and a fresh bid rests. -/
def freshRest : List Request :=
  [.newOrderSingle (makeNewOrderSingle alice 1 .buy 10), .newOrderSingle (makeNewOrderSingle bob 103 .sell 10),
    .newOrderSingle (makeNewOrderSingle alice 3 .buy 9 70)]

theorem feed_shows_top_fresh_rest :
    ∃ e trace, Engine.run .above defaultConfig freshRest = .ok (e, trace) ∧
      published 1 .buy (logOf trace) = (some 9, some 70) ∧ published 1 .sell (logOf trace) = (none, none) := by
  obtain ⟨e, trace, ran, law⟩ := feed_shows_top .above defaultConfig freshRest (by decide)
  have state : (Engine.run .above defaultConfig freshRest).map (fun out => out.1.books.map fun entry =>
      (entry.1, entry.2.bestLevel .buy, entry.2.bestLevel .sell)) = .ok [(aapl, some ⟨9, 70⟩, none)] := by
    decide
  rw [ran] at state
  have books : e.books.map (fun entry => (entry.1, entry.2.bestLevel .buy, entry.2.bestLevel .sell)) =
      [(aapl, some ⟨9, 70⟩, none)] := Except.ok.inj state
  obtain ⟨entry, hb, same⟩ := List.mem_map.1 (books ▸ List.mem_singleton_self _)
  obtain ⟨symbol, buy, sell⟩ : entry.1 = aapl ∧ entry.2.bestLevel .buy = some ⟨9, 70⟩ ∧ entry.2.bestLevel .sell = none := by
    simpa using same
  have label : ∀ request ∈ freshRest, Labelled entry.1 1 request := by
    have named : freshRest.map names = List.replicate 3 (some (aapl, 1)) := by decide
    intro request member s id sent
    have here : names request ∈ List.replicate 3 (some (aapl, (1 : SecurityId))) := by
      rw [← named]
      exact List.mem_map_of_mem member
    rw [sent] at here
    cases List.eq_of_mem_replicate here
    rw [symbol]
    exact ⟨fun _ => rfl, fun _ => rfl⟩
  have bid := law entry hb 1 label .buy
  have ask := law entry hb 1 label .sell
  rw [buy] at bid
  rw [sell] at ask
  exact ⟨e, trace, ran, bid, ask⟩

end DemoExchange.Properties
