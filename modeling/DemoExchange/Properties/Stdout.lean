import DemoExchange.Properties.Feed
import DemoExchange.Properties.Process
import DemoExchange.Properties.Records

/-!
# What can be read off stdout

Whoever reads stdout line by line gets the records of the messages that were
published, and of no others; and whoever follows the book updates of a security
there knows the best levels of its book.
-/

namespace DemoExchange.Properties
set_option autoImplicit false
open Text Lab Json OrderEntry MatchingEngine Reference Server Refinement Interleaving MarketData.JsonEncoder

section Lines

variable {lib : Nlohmann}

/-- The lines of a text, parsed. -/
def documents (lib : Nlohmann) (text : Bytes) : List (Throws Value) := (records MarketData.newline text).map lib.parse

/-- The record of a message, as it is parsed. -/
def documentOf (message : MarketData.Message) : Throws Value := .ok (object (payload message))

theorem documents_recordsOf (lined : Lined lib) {messages : List MarketData.Message} (valid : ∀ message ∈ messages, Utf8Message message) :
    documents lib (recordsOf lib messages) = messages.map documentOf := by
  induction messages with
  | nil => rfl
  | cons message messages ih =>
    obtain ⟨here, others⟩ := List.forall_mem_cons.1 valid
    have record := record_payload here
    obtain ⟨rest, braced⟩ := lined.braced _ record
    have full : encode lib message ≠ [] := by
      rw [encode, braced]
      exact List.cons_ne_nil _ _
    have split : recordsOf lib (message :: messages) = encode lib message ++ MarketData.newline :: recordsOf lib messages := by
      simp [recordsOf, MarketData.Publisher.send, MarketData.SpdlogSink.write]
    have line : MarketData.newline ∉ encode lib message := lined.one_line _ record
    have parsed : lib.parse (encode lib message) = documentOf message := lined.parses _ record
    rw [documents, split, records_append line, if_neg full, List.map_cons, List.map_cons, parsed, ← documents, ih others]

theorem documentOf_inj : Function.Injective documentOf := fun _ _ same => payload_inj (Except.ok.inj same)

/-- **The text of some messages** is that of no others. -/
theorem recordsOf_inj (lined : Lined lib) {messages messages' : List MarketData.Message}
    (valid : ∀ message ∈ messages, Utf8Message message) (valid' : ∀ message ∈ messages', Utf8Message message)
    (same : recordsOf lib messages = recordsOf lib messages') : messages = messages' := by
  have read := documents_recordsOf lined valid
  rw [same, documents_recordsOf lined valid'] at read
  exact (List.map_injective_iff.2 documentOf_inj read).symm

end Lines

section Published

/-- The texts of a message of the event are valid UTF-8. -/
def Utf8Event (event : Emission) : Prop := ∀ message, event.message? = some message → Utf8Message message

theorem utf8_orderEntry (event : Event) : Utf8Event (.orderEntry event) := fun _ said => nomatch said

theorem utf8_bookUpdate (live : List LiveOrder) (symbol : Symbol) (side : Side) (id : SecurityId) :
    Utf8Event (bookUpdate live symbol side id) := by
  rintro _ ⟨⟩
  trivial

theorem utf8_call (f : Fill) : Utf8Event (.trade f.call) := by
  rintro _ ⟨⟩
  exact validUtf8_ascii (s := "20260522") (by decide)

theorem utf8_removalUpdate (x : Exchange) (o : LiveOrder) : ∀ event ∈ x.removalUpdate o, Utf8Event event := by
  intro event member
  unfold Exchange.removalUpdate at member
  split at member
  · rw [List.mem_singleton.1 member]
    exact utf8_bookUpdate _ _ _ _
  · cases member

theorem utf8_accept (x : Exchange) (request : NewOrderSingle) : ∀ event ∈ (x.accept request).2, Utf8Event event := by
  simp only [Exchange.accept, List.forall_mem_append, List.forall_mem_cons, List.forall_mem_map]
  refine ⟨⟨⟨⟨utf8_orderEntry _, fun f _ => utf8_call f⟩, fun event member => ?_⟩, fun event member => ?_⟩, fun event member => ?_⟩
  · unfold tradeReports at member
    split at member
    · cases member
    · rcases List.mem_cons.1 member with rfl | member
      · rintro _ ⟨⟩
        trivial
      · rw [List.mem_singleton.1 member]
        exact utf8_orderEntry _
  · split at member
    · cases member
    · rw [List.mem_singleton.1 member]
      exact utf8_bookUpdate _ _ _ _
  · split at member
    · rw [List.mem_singleton.1 member]
      exact utf8_bookUpdate _ _ _ _
    · cases member

theorem utf8_step (x : Exchange) (request : Request) : ∀ event ∈ (x.step request).2, Utf8Event event := by
  have outcome := step_outcome x request
  generalize x.step request = next at outcome ⊢
  cases outcome with
  | refused request events rejects =>
    intro event member
    obtain ⟨cancel, reason, text, rfl⟩ := rejects event member
    exact utf8_orderEntry _
  | accepted request absent known => exact utf8_accept x request
  | cancelled incoming o member keyed => exact List.forall_mem_cons.2 ⟨utf8_orderEntry _, utf8_removalUpdate x o⟩
  | replaced incoming o member keyed absent known =>
    exact List.forall_mem_append.2 ⟨utf8_removalUpdate x o, utf8_accept _ _⟩
  | lost incoming o member =>
    exact List.forall_mem_append.2 ⟨utf8_removalUpdate x o, List.forall_mem_singleton.2 (utf8_orderEntry _)⟩
  | flushed => exact List.forall_mem_nil _

/-- The ids of an event are not among its texts. -/
theorem utf8_unnumbered {event : Emission} (valid : Utf8Event (unnumbered event)) : Utf8Event event := by
  cases event with
  | marketData message => exact valid
  | trade call =>
    rintro _ ⟨⟩
    exact valid (.trade { call.event with tradeId := 0 }) rfl
  | orderEntry event => exact utf8_orderEntry event

/-- **What the engine publishes** has texts in UTF-8. -/
theorem utf8_marketDataOf (configuration : EngineConfig) (requests : List Request) :
    ∀ message ∈ marketDataOf configuration requests, Utf8Message message := by
  have log : ∀ event ∈ logOf (run configuration requests).2, Utf8Event event :=
    Run.drive_rule (P := fun _ trace => ∀ event ∈ logOf trace, Utf8Event event) (Q := fun _ => True) (List.forall_mem_nil _)
      (fun x trace request before _ => by
        rw [logOf_snoc]
        exact List.forall_mem_append.2 ⟨before, utf8_step x request⟩) requests fun _ _ => trivial
  intro message published
  obtain ⟨answer, answered, said⟩ := List.mem_flatMap.1 published
  obtain ⟨event, sent, same⟩ := List.mem_filterMap.1 said
  have numbered : event ∈ logOf (numberedRun configuration requests).2 := List.mem_flatMap.2 ⟨answer, answered, sent⟩
  have valid := log (unnumbered event) (logOf_unnumbered configuration requests ▸ List.mem_map_of_mem numbered)
  exact utf8_unnumbered valid message same

end Published

section Serving

variable {lib : Nlohmann} {decoder : Decoder} {alloc : Pool.Allocator} {configuration : Config} {process : Process}

/-- What has been published so far has texts in UTF-8. -/
theorem utf8_published {actions : List ProcessAction}
    (ran : exec (Process.step lib decoder alloc) (.start alloc configuration) actions = some process) :
    ∀ message ∈ process.application.published, Utf8Message message := by
  obtain ⟨-, actions', ran'⟩ := chained_run ran
  exact fun message member => utf8_marketDataOf _ _ message ((published_lags (live_run ran')).subset member)

/-- **Stdout says what was published.** At any moment its lines are the records
of the messages that were published, in order, and no process that has
published others shows the same. -/
theorem stdout_tells (lined : Lined lib) {actions : List ProcessAction}
    (ran : exec (Process.step lib decoder alloc) (.start alloc configuration) actions = some process) :
    documents lib process.stdout = process.application.published.map documentOf ∧
      ∀ decoder' alloc' configuration' actions' process',
        exec (Process.step lib decoder' alloc') (.start alloc' configuration') actions' = some process' →
          process'.stdout = process.stdout → process'.application.published = process.application.published := by
  have stdout := (chained_run ran).1.stdout
  refine ⟨?_, fun decoder' alloc' configuration' actions' process' ran' same => ?_⟩
  · rw [stdout, documents_recordsOf lined (utf8_published ran)]
  · rw [stdout, (chained_run ran').1.stdout] at same
    exact recordsOf_inj lined (utf8_published ran') (utf8_published ran) same

end Serving

section Watching

/-- The number under a name, if one is there. -/
def numberAt (document : Value) (fieldName : String) : Option UInt64 :=
  match document.find? (ascii fieldName) with
  | some (.numberUnsigned n) => some n
  | _ => none

/-- The text under a name, if one is there. -/
def textAt (document : Value) (fieldName : String) : Option Bytes :=
  match document.find? (ascii fieldName) with
  | some (.string s) => some s
  | _ => none

/-- What a reader of stdout knows of a side after one more line. -/
def watch (lib : Nlohmann) (securityId : SecurityId) (side : MarketData.Side) (last : Shown) (line : Bytes) : Shown :=
  match lib.parse line with
  | .ok document =>
    if textAt document "message_type" = some (ascii "mbo_book_update") ∧ numberAt document "security_id" = some securityId ∧
        textAt document "side" = some (encodeSide side) then
      (numberAt document "price", numberAt document "quantity")
    else last
  | .error _ => last

/-- What a reader of stdout knows of a side. -/
def watched (lib : Nlohmann) (securityId : SecurityId) (side : MarketData.Side) (stdout : Bytes) : Shown :=
  (records MarketData.newline stdout).foldl (watch lib securityId side) (none, none)

theorem textAt_of_find {document : Value} {fieldName : String} {s : Bytes} (found : document.find? (ascii fieldName) = some (.string s)) :
    textAt document fieldName = some s := by
  rw [textAt, found]

theorem numberAt_of_find {document : Value} {fieldName : String} {n : UInt64}
    (found : document.find? (ascii fieldName) = some (.numberUnsigned n)) : numberAt document fieldName = some n := by
  rw [numberAt, found]

theorem numberAt_of_optional {document : Value} {fieldName : String} {n : Option UInt64}
    (found : document.find? (ascii fieldName) = some (optionalToJson n)) : numberAt document fieldName = n := by
  cases n with
  | none => rw [numberAt, found, optionalToJson]
  | some n => exact numberAt_of_find found

variable {lib : Nlohmann} {securityId : SecurityId} {side : MarketData.Side}

/-- **A line is read** as the message that it is the record of. -/
theorem watch_line {line : Bytes} {message : MarketData.Message} (parsed : lib.parse line = documentOf message) (last : Shown) :
    watch lib securityId side last line = readUpdate securityId side last (.marketData message) := by
  have type := textAt_of_find (recordType_found message)
  simp only [watch, parsed, documentOf, type]
  cases message with
  | mboBookUpdate update =>
    have found : ∀ {field : Bytes × Value} (i : Nat), (payload (.mboBookUpdate update))[i]? = some field →
        (object (payload (.mboBookUpdate update))).find? field.1 = some field.2 :=
      fun i at_i => find_object (record_once _) (List.mem_of_getElem? at_i)
    have ids := numberAt_of_find (found 1 rfl)
    have sides := textAt_of_find (found 3 rfl)
    have price := numberAt_of_optional (found 5 rfl)
    have quantity := numberAt_of_optional (found 6 rfl)
    simp only [ids, sides, price, quantity, recordType, readUpdate, Emission.message?, Option.some.injEq, encodeSide_inj, true_and]
  | _ => exact if_neg fun all => absurd (Option.some.inj all.1) (by simp only [recordType]; decide)

/-- What a reader of the records of some events knows is what their book updates say. -/
theorem watched_published (lined : Lined lib) {log : List Emission} (valid : ∀ message ∈ Refinement.messages log, Utf8Message message) :
    watched lib securityId side (recordsOf lib (Refinement.messages log)) = published securityId side log := by
  have parsed := documents_recordsOf lined valid
  have lines : ∀ (lines : List Bytes) (messages : List MarketData.Message) (last : Shown),
      lines.map lib.parse = messages.map documentOf →
        lines.foldl (watch lib securityId side) last =
          messages.foldl (fun last message => readUpdate securityId side last (.marketData message)) last := by
    intro lines
    induction lines with
    | nil =>
      intro messages last same
      rw [List.map_nil, eq_comm, List.map_eq_nil_iff] at same
      rw [same]
      rfl
    | cons line lines ih =>
      intro messages last same
      cases messages with
      | nil => cases same
      | cons message messages =>
        obtain ⟨first, others⟩ := List.cons.inj same
        rw [List.foldl_cons, List.foldl_cons, watch_line first, ih messages _ others]
  rw [watched, lines _ _ _ parsed, Refinement.messages, List.foldl_filterMap, published]
  refine List.foldl_ext _ _ _ fun last event _ => ?_
  cases event with
  | marketData message => rfl
  | trade call => rfl
  | orderEntry event => rfl

end Watching

section Top

variable {lib : Nlohmann} {decoder : Decoder} {alloc : Pool.Allocator} {configuration : Config} {process : Process}

theorem marketDataOf_eq (configuration : EngineConfig) (requests : List Request) :
    marketDataOf configuration requests = Refinement.messages (logOf (numberedRun configuration requests).2) := by
  rw [marketDataOf, Refinement.messages, logOf, List.filterMap_flatMap]
  rfl

/-- **The top of book on stdout.** When `stop` has returned and no flush came,
who followed the book updates of a security on stdout knows the best levels of
its book: the price and the total of each side, or neither when it is empty. -/
theorem stdout_shows_top (lined : Lined lib) {actions : List ProcessAction}
    (ran : exec (Process.step lib decoder alloc) (.start alloc configuration) actions = some process)
    (returned : process.application.controller = .returned)
    (audible : ∀ request ∈ requestsOf decoder process.delivered, request ≠ .flush) :
    ∀ entry ∈ process.application.engine.books, ∀ securityId,
      (∀ request ∈ requestsOf decoder process.delivered, Labelled entry.1 securityId request) →
        ∀ side, watched lib securityId (marketSide side) process.stdout = shown (entry.2.bestLevel side) := by
  obtain ⟨chained, actions', ran'⟩ := chained_run ran
  have live := live_run ran'
  rintro ⟨symbol, book⟩ hb securityId label side
  obtain ⟨e, handled, ⟨items, h⟩, -⟩ := engine_run alloc configuration.matchingEngine (requestsOf decoder process.delivered)
  have reached : e = process.application.engine := by
    have machine := live.exact.handled
    rw [show (view process.application).answers.map Prod.fst = process.application.received from (handled_all live returned).symm,
      chained.received] at machine
    exact (Prod.mk.inj (Except.ok.inj (handled.symm.trans machine))).1
  have fed := run_fed configuration.matchingEngine (requestsOf decoder process.delivered) symbol securityId audible label
  have said := published_all live returned
  rw [chained.received, marketDataOf_eq] at said
  have valid := utf8_published ran
  rw [said] at valid
  rw [← reached] at hb
  rw [chained.stdout, said, watched_published lined valid, h.bestLevel hb, ← published_unnumbered, logOf_unnumbered, fed.top side,
    run_unnumbered]

end Top

section Witness

theorem fourDatagrams_recorded :
    (exec (Process.step recorded scripted .above) (.start .above mixedConfig) fourDatagrams).map
        (fun process => (process.application.controller, process.delivered)) =
      some (.returned, [ascii "bid", ascii " ", ascii "ask"]) := by
  decide +kernel

theorem stdout_tells_fourDatagrams :
    ∃ process, exec (Process.step recorded scripted .above) (.start .above mixedConfig) fourDatagrams = some process ∧
      documents recorded process.stdout = process.application.published.map documentOf ∧
      ∀ decoder' alloc' configuration' actions' process',
        exec (Process.step recorded decoder' alloc') (.start alloc' configuration') actions' = some process' →
          process'.stdout = process.stdout → process'.application.published = process.application.published := by
  obtain ⟨process, ran, -⟩ := Option.map_eq_some_iff.1 fourDatagrams_recorded
  exact ⟨process, ran, stdout_tells recorded_lined ran⟩

theorem stdout_shows_top_fourDatagrams :
    ∃ process, exec (Process.step recorded scripted .above) (.start .above mixedConfig) fourDatagrams = some process ∧
      ∃ entry ∈ process.application.engine.books, entry.2.bestLevel .buy = some ⟨10, 100⟩ ∧
        watched recorded 1 .buy process.stdout = (some 10, some 100) := by
  obtain ⟨process, ran, seen⟩ := Option.map_eq_some_iff.1 fourDatagrams_recorded
  obtain ⟨returned, delivered⟩ := Prod.mk.inj seen
  have requests : requestsOf scripted process.delivered = [bid] := by
    rw [delivered]
    decide
  have books : (exec (Process.step recorded scripted .above) (.start .above mixedConfig) fourDatagrams).map (fun process =>
      process.application.engine.books.map fun entry => (entry.1, entry.2.bestLevel .buy)) = some [(aapl, some ⟨10, 100⟩)] := by
    decide +kernel
  rw [ran] at books
  obtain ⟨entry, hb, same⟩ := List.mem_map.1 (Option.some.inj books ▸ List.mem_singleton_self _)
  obtain ⟨symbol, buy⟩ := Prod.mk.inj same
  refine ⟨process, ran, entry, hb, buy, ?_⟩
  have top := stdout_shows_top recorded_lined ran returned (by rw [requests]; decide) entry hb 1 (by
    rw [requests, symbol]
    rintro request member s id sent
    rw [List.mem_singleton.1 member] at sent
    cases sent
    exact ⟨fun _ => rfl, fun _ => rfl⟩) .buy
  rw [buy] at top
  exact top

end Witness

end DemoExchange.Properties
