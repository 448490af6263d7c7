import DemoExchange.OrderClient.Client
import DemoExchange.OrderEntry.JsonDecoder

/-!
# The command-line client

`client/src/main.cpp`: each line of the input that is not empty is decoded and
sent. `Environment` is what the program reads.
-/

namespace DemoExchange.Client
set_option autoImplicit false
open Text Lab OrderEntry OrderClient

inductive InputConfig where
  | stdin
  | file (path : Bytes)
  deriving DecidableEq, Repr

structure AppConfig where
  orderClient : UdpSenderConfig
  input : InputConfig
  deriving DecidableEq, Repr

def inputPath : InputConfig → Option Bytes
  | .file path => some path
  | .stdin => none

structure Environment where
  stdin : Bytes
  /-- What is in a file that can be opened. -/
  file : Bytes → Option Bytes

/-- The text of the input, where it can be opened. -/
def inputText (environment : Environment) : InputConfig → Option Bytes
  | .stdin => some environment.stdin
  | .file path => environment.file path

/-- The lines that `std::getline` reads until it fails: what follows the last
newline is a line where it is not empty. -/
def getlines (input : Bytes) : List Bytes :=
  let pieces := input.splitOn '\n'.toUInt8
  if pieces.getLast? = some [] then pieces.dropLast else pieces

/-- The decoder of `send_commands`. -/
def decoderConfig : JsonDecoder.Config := ⟨65535⟩

section Commands

variable (lib : Nlohmann) (socket : Socket)

/-- The body of the loop in `send_commands`. -/
def sendLine (sender : UdpSender) (line : Bytes) : Result Unit × UdpSender :=
  if line = [] then (.ok (), sender)
  else
    match JsonDecoder.decode lib decoderConfig line with
    | .error error => (.error error, sender)
    | .ok request => Client.send lib socket sender request

/-- `send_commands`, by the lines of the stream. -/
def sendCommands : List Bytes → UdpSender → Result Unit × UdpSender
  | [], sender => (.ok (), sender)
  | line :: lines, sender =>
    match sendLine lib socket sender line with
    | (.error error, sender) => (.error error, sender)
    | (.ok (), sender) => sendCommands lines sender

def runClient (environment : Environment) (config : AppConfig) : Result Unit × UdpSender :=
  match (UdpSender.start config.orderClient).connect socket with
  | (.error error, sender) => (.error error, sender)
  | (.ok (), sender) =>
    match inputPath config.input with
    | some path =>
      match environment.file path with
      | some input => sendCommands lib socket (getlines input) sender
      | none => (makeLeafError .configurationError (ascii "could not open input file"), sender)
    | none => sendCommands lib socket (getlines environment.stdin) sender

end Commands

theorem runClient_opened (lib : Nlohmann) (socket : Socket) {environment : Environment} {config : AppConfig} {text : Bytes}
    (opened : inputText environment config.input = some text) :
    runClient lib socket environment config =
      match (UdpSender.start config.orderClient).connect socket with
      | (.error error, sender) => (.error error, sender)
      | (.ok (), sender) => sendCommands lib socket (getlines text) sender := by
  unfold runClient
  cases input : config.input with
  | stdin =>
    rw [input] at opened
    cases opened
    rfl
  | file path =>
    rw [input] at opened
    simp only [inputPath, show environment.file path = some text from opened]

/-- The lines that are not empty are the records of the text. -/
theorem getlines_records (input : Bytes) : (getlines input).filter (· ≠ []) = records '\n'.toUInt8 input := by
  simp only [getlines, records]
  split
  · rename_i last
    conv_rhs => rw [← List.dropLast_append_getLast? _ last, List.filter_append]
    simp
  · rfl

section Spec

/-- The request that a line asks for. -/
def commandOf (lib : Nlohmann) (line : Bytes) : Option Request :=
  if line = [] then none else (JsonDecoder.decode lib decoderConfig line).toOption

/-- The requests of some lines. -/
def commandsOf (lib : Nlohmann) (lines : List Bytes) : List Request := lines.filterMap (commandOf lib)

/-- The line is empty, or its request can be decoded and is small enough to be sent. -/
def Legible (lib : Nlohmann) (config : UdpSenderConfig) (line : Bytes) : Prop :=
  line ≠ [] → ∃ request, JsonDecoder.decode lib decoderConfig line = .ok request ∧
    (JsonEncoder.encode lib request).length ≤ config.maxDatagramSize.toNat

/-- Why the request of a line is not sent. -/
inductive Fails (lib : Nlohmann) (socket : Socket) (config : UdpSenderConfig) (line : Bytes) (error : Error) : Prop where
  | decode (failed : JsonDecoder.decode lib decoderConfig line = .error error)
  | send {request : Request} (decoded : JsonDecoder.decode lib decoderConfig line = .ok request)
      (failed : SendFails socket config (JsonEncoder.encode lib request) error)

variable {lib : Nlohmann} {socket : Socket}

/-- **One line.** Its request is sent, or the line fails and nothing is sent. -/
theorem sendLine_cases (lib : Nlohmann) (socket : Socket) (sender : UdpSender) (line : Bytes) :
    (sendLine lib socket sender line).2.config = sender.config ∧
      ((sendLine lib socket sender line).1 = .ok () ∧ Legible lib sender.config line ∧
          (sendLine lib socket sender line).2.sent = sender.sent ++ (commandsOf lib [line]).map (JsonEncoder.encode lib) ∨
        (∃ error, (sendLine lib socket sender line).1 = .error error ∧ Fails lib socket sender.config line error) ∧
          (sendLine lib socket sender line).2.sent = sender.sent) := by
  unfold sendLine
  split
  · rename_i empty
    exact ⟨rfl, .inl ⟨rfl, fun full => absurd empty full, by simp [commandsOf, commandOf, empty]⟩⟩
  · rename_i full
    split
    · rename_i error failed
      exact ⟨rfl, .inr ⟨⟨error, rfl, .decode failed⟩, rfl⟩⟩
    · rename_i request decoded
      have command : commandOf lib line = some request := by rw [commandOf, if_neg full, decoded]; rfl
      obtain ⟨config, ⟨came, small, sent⟩ | ⟨⟨error, came, fails⟩, sent⟩⟩ :=
        UdpSender.send_cases socket sender (JsonEncoder.encode lib request)
      · refine ⟨config, .inl ⟨came, fun _ => ⟨request, decoded, small⟩, ?_⟩⟩
        rw [commandsOf, List.filterMap_cons_some command, List.filterMap_nil]
        exact sent
      · exact ⟨config, .inr ⟨⟨error, came, .send decoded fails⟩, sent⟩⟩

theorem commandsOf_append (lines more : List Bytes) : commandsOf lib (lines ++ more) = commandsOf lib lines ++ commandsOf lib more :=
  List.filterMap_append

/-- An empty line asks for nothing. -/
theorem commandsOf_records (lib : Nlohmann) (text : Bytes) :
    commandsOf lib (getlines text) = commandsOf lib (records '\n'.toUInt8 text) := by
  rw [← getlines_records, commandsOf, commandsOf, List.filterMap_filter]
  refine List.filterMap_congr fun line _ => ?_
  by_cases empty : line = [] <;> simp [empty, commandOf]

/-- What was sent before a line failed, or to the end. -/
structure Relayed (lib : Nlohmann) (socket : Socket) (config : UdpSenderConfig) (lines done : List Bytes) (result : Result Unit) :
    Prop where
  legible : ∀ line ∈ done, Legible lib config line
  finished : result = .ok () → done = lines
  stuck : ∀ error, result = .error error → ∃ line rest, lines = done ++ line :: rest ∧ Fails lib socket config line error

/-- **The loop** sends the requests of the lines up to the first that fails. -/
theorem sendCommands_relayed (lib : Nlohmann) (socket : Socket) (lines : List Bytes) : ∀ sender : UdpSender, ∃ done,
    Relayed lib socket sender.config lines done (sendCommands lib socket lines sender).1 ∧ done <+: lines ∧
      (sendCommands lib socket lines sender).2.config = sender.config ∧
      (sendCommands lib socket lines sender).2.sent = sender.sent ++ (commandsOf lib done).map (JsonEncoder.encode lib) := by
  induction lines with
  | nil =>
    intro sender
    exact ⟨[], ⟨List.forall_mem_nil _, fun _ => rfl, fun error came => by cases came⟩, List.prefix_rfl, rfl, (List.append_nil _).symm⟩
  | cons line lines ih =>
    intro sender
    obtain ⟨config, ⟨came, legible, sent⟩ | ⟨⟨error, came, fails⟩, sent⟩⟩ := sendLine_cases lib socket sender line
    · rw [sendCommands]
      split
      · rename_i error sender' failed
        rw [failed] at came
        cases came
      · rename_i sender' went
        rw [went] at config sent
        obtain ⟨done, relayed, before, config', sent'⟩ := ih sender'
        rw [show sender'.config = sender.config from config] at relayed config'
        refine ⟨line :: done, ⟨List.forall_mem_cons.2 ⟨legible, relayed.legible⟩, fun finished => ?_, fun error failed => ?_⟩,
          List.cons_prefix_cons.2 ⟨rfl, before⟩, config', ?_⟩
        · rw [relayed.finished finished]
        · obtain ⟨other, rest, split, fails⟩ := relayed.stuck error failed
          exact ⟨other, rest, by rw [split]; rfl, fails⟩
        · rw [sent', show sender'.sent = _ from sent, List.append_assoc, ← List.map_append, ← commandsOf_append]
          rfl
    · rw [sendCommands]
      split
      · rename_i error' sender' failed
        rw [failed] at came config sent
        cases came
        refine ⟨[], ⟨List.forall_mem_nil _, (fun finished => by cases finished), fun other same => ?_⟩, List.nil_prefix, config, ?_⟩
        · cases same
          exact ⟨line, lines, rfl, fails⟩
        · exact sent.trans (List.append_nil _).symm
      · rename_i sender' went
        rw [went] at came
        cases came

end Spec

end DemoExchange.Client
