import DemoExchange.Client.Main
import DemoExchange.Properties.Decoding
import DemoExchange.Refinement.Process

/-!
# From the lines of the client to the requests of the gateway

The client sends the requests of its lines, in order, up to the first line that
fails. The gateway makes the same requests of what was sent: a text that came
out of the parser is UTF-8, so it goes back through it.
-/

namespace DemoExchange.Properties
set_option autoImplicit false
open Text Lab OrderEntry Json Server Refinement Client OrderClient OrderEntry.JsonDecoder

/-- What the JSON library documents: flat objects are parsed as they were
dumped, a text that is not UTF-8 is not parsed, and an object is dumped in
braces. -/
structure Documented (lib : Nlohmann) : Prop where
  lawful : lib.Lawful
  utf8 : ∀ text document key s, lib.parse text = .ok document → document.find? key = some (.string s) → ValidUtf8 s
  braced : ∀ document, Flat document → ∃ rest, lib.dump document = opening :: rest

section Utf8

variable {lib : Nlohmann} {document : Value} {fieldName : String}

theorem fixedString_text {size : Nat} {value : Value} {text : FixedString size} (read : fromJson lib value = .ok text) :
    value = .string text.content := by
  obtain ⟨s, rfl, fits⟩ := (isText_reads lib value).2 ⟨text, read⟩
  change FixedString.fromJson size lib (.string s) = .ok text at read
  simp only [FixedString.fromJson, Nlohmann.getString, Throws.ok_bind, FixedString.fromView, dif_pos fits, Except.ok.injEq] at read
  rw [← read]

variable (texts : ∀ key s, document.find? key = some (.string s) → ValidUtf8 s)
include texts

theorem getRequired_utf8 {size : Nat} {text : FixedString size}
    (got : getRequired (FixedString size) lib document fieldName = .ok text) : ValidUtf8 text.content := by
  obtain ⟨value, found, read⟩ := getRequired_eq_ok.1 got
  exact texts _ _ (fixedString_text read ▸ found)

theorem getOptional_utf8 {size : Nat} {text fallback : FixedString size} (valid : ValidUtf8 fallback.content)
    (got : getOptional (FixedString size) lib document fieldName fallback = .ok text) : ValidUtf8 text.content := by
  rcases getOptional_eq_ok.1 got with ⟨-, rfl⟩ | ⟨value, found, read⟩
  · exact valid
  · exact texts _ _ (fixedString_text read ▸ found)

theorem readsRequest_utf8 {request : Request} (reads : ReadsRequest lib document request) : Utf8Texts request := by
  have default : ValidUtf8 defaultSecurityExchange.content := validUtf8_ascii (by decide)
  cases request with
  | newOrderSingle order => exact ⟨getRequired_utf8 texts reads.symbol, getOptional_utf8 texts default reads.securityExchange⟩
  | replaceOrder replace => exact ⟨getRequired_utf8 texts reads.1.symbol, getOptional_utf8 texts default reads.1.securityExchange⟩
  | cancelOrder cancel => trivial
  | flush => trivial

end Utf8

section Gateway

variable {lib : Nlohmann} {config : JsonDecoder.Config}

/-- **The texts of a decoded request** are valid UTF-8. -/
theorem decode_utf8 (documented : Documented lib) {text : Bytes} {request : Request} (decoded : decode lib config text = .ok request) :
    Utf8Texts request := by
  unfold decode at decoded
  split at decoded
  · cases decoded
  · split at decoded
    · rename_i result returned
      subst decoded
      obtain ⟨document, parsed, -, reads⟩ := decodeDatagram_eq_ok.1 returned
      exact readsRequest_utf8 (documented.utf8 text document · · parsed) reads
    · cases decoded

/-- A message of the client is not blank. -/
theorem trim_encode (documented : Documented lib) {request : Request} (valid : Utf8Texts request) :
    trim (JsonEncoder.encode lib request) asciiWhitespace ≠ [] := by
  obtain ⟨rest, braced⟩ := documented.braced _ (flat_payload valid)
  rw [ne_eq, trim_eq_nil, JsonEncoder.encode, braced, List.forall_mem_cons]
  exact fun blank => absurd blank.1 (by decide)

/-- **The gateway** makes of a message the request it was made from. -/
theorem send_encode (documented : Documented lib) {request : Request} (valid : Utf8Texts request)
    (fits : (JsonEncoder.encode lib request).length ≤ config.maxDatagramSize.toNat) :
    Session.send (JsonDecoder.decoder lib config) (JsonEncoder.encode lib request) = some (.onRequest request) := by
  have has : Has (object (JsonEncoder.payload request)) (JsonEncoder.payload request) :=
    fun _ member => find_object (payload_once request) member
  have read := decodeDatagram_has (parse_encode documented.lawful valid) has
  have decoded : JsonDecoder.decoder lib config (JsonEncoder.encode lib request) = .ok request := by
    simp only [JsonDecoder.decoder, decode, if_neg (Nat.not_lt.2 fits), read]
  rw [Session.send, if_neg (trim_encode documented valid), decoded]

end Gateway

section Relaying

variable {lib : Nlohmann} {socket : Socket} {config : UdpSenderConfig} {gateway : JsonDecoder.Config} {lines : List Bytes}

theorem decode_of_command {line : Bytes} {request : Request} (command : commandOf lib line = some request) :
    line ≠ [] ∧ decode lib decoderConfig line = .ok request := by
  unfold commandOf at command
  split at command
  · cases command
  · rename_i full
    refine ⟨full, ?_⟩
    cases decoded : decode lib decoderConfig line with
    | error error =>
      rw [decoded] at command
      cases command
    | ok other =>
      rw [decoded] at command
      exact congrArg _ (Option.some.inj command)

/-- **What the gateway makes** of the requests of some lines. -/
theorem send_commands (documented : Documented lib) (sizes : config.maxDatagramSize ≤ gateway.maxDatagramSize)
    (legible : ∀ line ∈ lines, Legible lib config line) :
    ∀ request ∈ commandsOf lib lines,
      Session.send (JsonDecoder.decoder lib gateway) (JsonEncoder.encode lib request) = some (.onRequest request) := by
  intro request asked
  obtain ⟨line, member, command⟩ := List.mem_filterMap.1 asked
  obtain ⟨full, decoded⟩ := decode_of_command command
  obtain ⟨other, decoded', small⟩ := legible line member full
  obtain rfl := Except.ok.inj (decoded.symm.trans decoded')
  exact send_encode documented (decode_utf8 documented decoded) (small.trans (UInt64.le_iff_toNat_le.1 sizes))

/-- **The client relays its input.** It sends the requests of the lines up to
the first that fails, one datagram each and in order, and a gateway that takes
datagrams of their size makes the same requests of them. -/
theorem client_relays (documented : Documented lib) {environment : Environment} {app : AppConfig} {text : Bytes}
    (opened : inputText environment app.input = some text) :
    (∃ error, (runClient lib socket environment app).1 = .error error ∧ ConnectFails socket app.orderClient error ∧
        (runClient lib socket environment app).2.sent = []) ∨
      ∃ done, Relayed lib socket app.orderClient (getlines text) done (runClient lib socket environment app).1 ∧
        (runClient lib socket environment app).2.sent = (commandsOf lib done).map (JsonEncoder.encode lib) ∧
        (app.orderClient.maxDatagramSize ≤ gateway.maxDatagramSize →
          (runClient lib socket environment app).2.sent.map (Session.send (JsonDecoder.decoder lib gateway)) =
            (commandsOf lib done).map fun request => some (.onRequest request)) := by
  obtain ⟨config, sent, fails⟩ := UdpSender.connect_cases socket (.start app.orderClient)
  rw [runClient_opened lib socket opened]
  split
  · rename_i error sender came
    rw [came] at sent fails
    exact .inl ⟨error, rfl, fails error rfl, sent⟩
  · rename_i sender came
    rw [came] at config sent
    obtain ⟨done, relayed, -, -, sent'⟩ := sendCommands_relayed lib socket (getlines text) sender
    rw [show sender.config = app.orderClient from config] at relayed
    rw [show sender.sent = [] from sent, List.nil_append] at sent'
    refine .inr ⟨done, relayed, sent', fun sizes => ?_⟩
    rw [sent', List.map_map]
    exact List.map_congr_left fun request asked => send_commands documented sizes relayed.legible request asked

end Relaying

section Witness

/-- The strings among the members of an object. -/
def strings : Value → List Bytes
  | .object members => members.filterMap fun member =>
    match member.2 with
    | .string s => some s
    | _ => none
  | _ => []

theorem mem_strings {document : Value} {key s : Bytes} (found : document.find? key = some (.string s)) : s ∈ strings document := by
  cases document with
  | object members =>
    obtain ⟨before, after, split, -⟩ := List.lookup_eq_some_iff.1 (show members.lookup key = some (.string s) from found)
    refine List.mem_filterMap.2 ⟨(key, .string s), ?_, rfl⟩
    rw [split]
    exact List.mem_append_right _ List.mem_cons_self
  | _ => cases found

/-- The compact library with the check of its texts. -/
def strict : Nlohmann := { compact with
  parse text :=
    match read text with
    | some document =>
      if ∀ s ∈ strings document, ValidUtf8 s then .ok document else .error (ascii "invalid UTF-8")
    | none => .error (ascii "parse error") }

theorem strict_documented : Documented strict where
  lawful := by
    rintro document flat
    have valid : ∀ s ∈ strings document, ValidUtf8 s := by
      obtain ⟨sorted, keys, values⟩ := flat
      intro s member
      obtain ⟨⟨key, value⟩, stored, isString⟩ := List.mem_filterMap.1 member
      cases values _ stored with
      | string valid =>
        cases isString
        exact valid
      | numberUnsigned n => cases isString
    change (match read (print document) with
      | some document => if ∀ s ∈ strings document, ValidUtf8 s then Except.ok document else .error (ascii "invalid UTF-8")
      | none => .error (ascii "parse error")) = .ok document
    rw [read_print flat]
    exact if_pos valid
  utf8 := by
    intro text document key s parsed found
    simp only [strict] at parsed
    split at parsed
    · split at parsed
      · rename_i valid
        cases parsed
        exact valid s (mem_strings found)
      · cases parsed
    · cases parsed
  braced := by
    rintro _ ⟨sorted, keys, values⟩
    rename_i members
    cases members with
    | nil => exact ⟨_, rfl⟩
    | cons member members => exact ⟨_, rfl⟩

/-- A socket whose calls all succeed. -/
def working : Socket := ⟨fun _ => none, fun _ => none, fun _ _ => none⟩

/-- Two orders, a line in between without one. -/
def twoLines : Bytes :=
  JsonEncoder.encode strict (.newOrderSingle testedOrder) ++ ascii "\n\n" ++ JsonEncoder.encode strict .flush ++ ascii "\n"

def demoClient : AppConfig := ⟨⟨⟨ascii "127.0.0.1", 1234⟩, 65535⟩, .stdin⟩

theorem client_relays_twoLines :
    (∃ error, (runClient strict working ⟨twoLines, fun _ => none⟩ demoClient).1 = .error error ∧
        ConnectFails working demoClient.orderClient error ∧ (runClient strict working ⟨twoLines, fun _ => none⟩ demoClient).2.sent = []) ∨
      ∃ done, Relayed strict working demoClient.orderClient (getlines twoLines) done
          (runClient strict working ⟨twoLines, fun _ => none⟩ demoClient).1 ∧
        (runClient strict working ⟨twoLines, fun _ => none⟩ demoClient).2.sent = (commandsOf strict done).map (JsonEncoder.encode strict) ∧
        (runClient strict working ⟨twoLines, fun _ => none⟩ demoClient).2.sent.map (Session.send (JsonDecoder.decoder strict ⟨65535⟩)) =
          (commandsOf strict done).map fun request => some (.onRequest request) := by
  obtain failed | ⟨done, relayed, sent, requested⟩ := @client_relays _ working ⟨65535⟩ strict_documented ⟨twoLines, fun _ => none⟩
    demoClient _ rfl
  · exact .inl failed
  · exact .inr ⟨done, relayed, sent, requested (by decide)⟩

end Witness

end DemoExchange.Properties
