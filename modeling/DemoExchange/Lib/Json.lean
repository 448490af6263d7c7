import DemoExchange.Lib.SortedMap
import DemoExchange.Lib.Text
import Mathlib.Data.List.Lex

/-!
# JSON values

A value keeps how its number was written: unsigned, signed or with a fraction.
The members of an object are sorted by key, the first of two with one key
counts (`object`). `print` is the compact text of an object of strings and
unsigned numbers, and `read` reads it back.
-/

namespace Json
set_option autoImplicit false
open Text

inductive Value where
  | null
  | boolean (b : Bool)
  | string (s : Bytes)
  | numberUnsigned (n : UInt64)
  | numberInteger (i : Int64)
  | numberFloat (q : Rat)
  | array (items : List Value)
  | object (members : List (Bytes × Value))

/-- The comparator of the keys. -/
def before (k k' : Bytes) : Prop := k < k'

instance : DecidableRel before := fun k k' => List.decidableLT k k'

instance byteTrichotomous : Std.Trichotomous (fun a b : UInt8 => a < b) where
  trichotomous a b := by simp only [UInt8.lt_iff_toNat_lt, ← UInt8.toNat_inj]; omega

instance : IsStrictTotalOrder Bytes before where
  trichotomous := (List.Lex.trichotomous (fun a b : UInt8 => a < b)).trichotomous
  irrefl k := List.lt_irrefl k
  trans _ _ _ := List.lt_trans

section Objects

variable {l m : List (Bytes × Value)} {key : Bytes} {value : Value}

/-- Put a member in where its key is free. -/
def emplace (m : List (Bytes × Value)) (member : Bytes × Value) : List (Bytes × Value) :=
  SortedMap.upsert before member.1 member.2 id m

/-- An object with some members. -/
def object (l : List (Bytes × Value)) : Value := .object (l.foldl emplace [])

/-- The member of an object. -/
def Value.find? (key : Bytes) : Value → Option Value
  | .object members => members.lookup key
  | _ => none

/-- The keys of an object. -/
def Value.keys : Value → List Bytes
  | .object members => members.map Prod.fst
  | _ => []

/-- The value is an object. -/
def Value.IsObject : Value → Prop
  | .object _ => True
  | _ => False

theorem find_eq_none {document : Value} {key : Bytes} : document.find? key = none ↔ key ∉ document.keys := by
  cases document with
  | object members =>
    have same : (instBEqOfDecidableEq : BEq Bytes) = List.instBEq := lawful_beq_subsingleton _ _
    change List.lookup key members = none ↔ key ∉ members.map Prod.fst
    rw [← same, ← Option.not_isSome_iff_eq_none, SortedMap.lookup_isSome]
  | _ => exact iff_of_true rfl List.not_mem_nil

/-- `document[key] = value`, where the document is an object. -/
def Value.assign : Value → Bytes → Value → Value
  | .object members, key, value => .object (SortedMap.upsert before key value (fun _ => value) members)
  | document, _, _ => document

/-- An object whose members are in order. -/
inductive Ordered : Value → Prop where
  | object {members : List (Bytes × Value)} (sorted : SortedMap.Sorted before members) : Ordered (.object members)

theorem Ordered.isObject {document : Value} (ordered : Ordered document) : document.IsObject := by
  cases ordered
  trivial

theorem Ordered.assign {document : Value} (ordered : Ordered document) (key : Bytes) (other : Value) :
    Ordered (document.assign key other) := by
  obtain ⟨sorted⟩ := ordered
  exact .object (SortedMap.upsert_sorted sorted)

theorem find_assign {document : Value} (ordered : Ordered document) (key key' : Bytes) (other : Value) :
    (document.assign key other).find? key' = if key' = key then some other else document.find? key' := by
  obtain ⟨sorted⟩ := ordered
  have same : (instBEqOfDecidableEq : BEq Bytes) = List.instBEq := lawful_beq_subsingleton _ _
  change List.lookup key' _ = if key' = key then some other else List.lookup key' _
  rw [← same]
  exact SortedMap.lookup_upsert sorted

theorem emplace_sorted (sorted : SortedMap.Sorted before m) (member : Bytes × Value) :
    SortedMap.Sorted before (emplace m member) := SortedMap.upsert_sorted sorted

theorem foldl_emplace_sorted : ∀ {m : List (Bytes × Value)}, SortedMap.Sorted before m →
    SortedMap.Sorted before (l.foldl emplace m) := by
  induction l with
  | nil => exact fun sorted => sorted
  | cons member l ih => exact fun sorted => ih (emplace_sorted sorted member)

theorem mem_emplace {member x : Bytes × Value} (sorted : SortedMap.Sorted before m) (free : ∀ y ∈ m, y.1 ≠ member.1) :
    x ∈ emplace m member ↔ x ∈ m ∨ x = member := by
  obtain ⟨key, value⟩ := member
  rw [emplace, SortedMap.mem_upsert sorted]
  constructor
  · rintro (⟨hx, -⟩ | ⟨same, b, bound, hb | ⟨rfl, -⟩⟩)
    · exact .inl hx
    · exact absurd rfl (free (key, b) hb)
    · exact .inr (Prod.ext same bound)
  · rintro (hx | rfl)
    · exact .inl ⟨hx, free x hx⟩
    · exact .inr ⟨rfl, _, rfl, .inr ⟨rfl, free⟩⟩

/-- With its keys all different, an object holds the members it was given. -/
theorem mem_foldl_emplace : ∀ {m : List (Bytes × Value)}, SortedMap.Sorted before m → (l.map Prod.fst).Nodup →
    (∀ x ∈ l, ∀ y ∈ m, y.1 ≠ x.1) → ∀ x, x ∈ l.foldl emplace m ↔ x ∈ m ∨ x ∈ l := by
  induction l with
  | nil => simp
  | cons member l ih =>
    intro m sorted once free x
    obtain ⟨absent, once⟩ := List.nodup_cons.1 once
    have here := free member List.mem_cons_self
    rw [List.foldl_cons, ih (emplace_sorted sorted member) once, mem_emplace sorted here, List.mem_cons, or_assoc]
    intro y hy z hz
    rcases (mem_emplace sorted here).1 hz with hz | rfl
    · exact free y (List.mem_cons_of_mem _ hy) z hz
    · exact fun same => absent (List.mem_map.2 ⟨y, hy, same.symm⟩)

/-- **The members of an object** are found by their keys. -/
theorem find_object (once : (l.map Prod.fst).Nodup) (member : (key, value) ∈ l) : (object l).find? key = some value := by
  have sorted : SortedMap.Sorted before (l.foldl emplace []) := foldl_emplace_sorted List.Pairwise.nil
  have same : (instBEqOfDecidableEq : BEq Bytes) = List.instBEq := lawful_beq_subsingleton _ _
  change List.lookup key (l.foldl emplace []) = some value
  rw [← same]
  refine (SortedMap.lookup_eq_some sorted.nodup).2 ?_
  exact (mem_foldl_emplace List.Pairwise.nil once (by simp) _).2 (.inr member)

end Objects

section Utf8

/-- The bytes are the UTF-8 of some text. -/
def ValidUtf8 (bytes : Bytes) : Prop := ∃ text : List Char, bytes = text.flatMap String.utf8EncodeChar

theorem validUtf8_iff {bytes : Bytes} : ValidUtf8 bytes ↔ bytes.toByteArray.IsValidUTF8 := by
  constructor
  · rintro ⟨text, rfl⟩
    exact ⟨text, rfl⟩
  · rintro ⟨text, same⟩
    refine ⟨text, ?_⟩
    simpa [List.utf8Encode] using congrArg (fun b => b.data.toList) same

instance (bytes : Bytes) : Decidable (ValidUtf8 bytes) := decidable_of_iff' _ validUtf8_iff

/-- The text is ASCII. -/
def isAscii (s : String) : Bool := s.toList.all fun c => c.toNat < 128

/-- ASCII is UTF-8. -/
theorem validUtf8_ascii {s : String} (plain : isAscii s = true) : ValidUtf8 (ascii s) := by
  refine ⟨s.toList, ?_⟩
  rw [ascii, List.map_eq_flatMap]
  refine List.flatMap_congr fun c member => ?_
  have small : c.val ≤ 127 := UInt32.le_iff_toNat_le.2 (Nat.le_of_lt_succ (of_decide_eq_true (List.all_eq_true.1 plain c member)))
  exact (String.utf8EncodeChar_eq_singleton (if_pos small)).symm

end Utf8

section Flat

/-- A string of valid UTF-8 or an unsigned number. -/
inductive Scalar : Value → Prop where
  | string {s : Bytes} (valid : ValidUtf8 s) : Scalar (.string s)
  | numberUnsigned (n : UInt64) : Scalar (.numberUnsigned n)

/-- An object of such members. -/
inductive Flat : Value → Prop where
  | object {members : List (Bytes × Value)} (sorted : SortedMap.Sorted before members)
      (keys : ∀ x ∈ members, ValidUtf8 x.1) (values : ∀ x ∈ members, Scalar x.2) : Flat (.object members)

theorem flat_object {l : List (Bytes × Value)} (once : (l.map Prod.fst).Nodup) (keys : ∀ x ∈ l, ValidUtf8 x.1)
    (values : ∀ x ∈ l, Scalar x.2) : Flat (object l) := by
  have members := mem_foldl_emplace (l := l) List.Pairwise.nil once (by simp)
  refine .object (foldl_emplace_sorted List.Pairwise.nil) (fun x member => ?_) fun x member => ?_
  · exact keys x (((members x).1 member).resolve_left List.not_mem_nil)
  · exact values x (((members x).1 member).resolve_left List.not_mem_nil)

end Flat

section Escapes

def quote : UInt8 := '"'.toUInt8

def backslash : UInt8 := '\\'.toUInt8

/-- The characters with an escape of one letter. -/
def letters : List (UInt8 × UInt8) :=
  [(quote, quote), (backslash, backslash), (8, 'b'.toUInt8), (9, 't'.toUInt8), (10, 'n'.toUInt8), (12, 'f'.toUInt8), (13, 'r'.toUInt8)]

def hexDigit (n : UInt8) : UInt8 := if n < 10 then '0'.toUInt8 + n else 'a'.toUInt8 + (n - 10)

def hexValue (digit : UInt8) : UInt8 := if isDigit digit then digit - '0'.toUInt8 else digit - 'a'.toUInt8 + 10

/-- How a byte of a string is written. -/
def escape (b : UInt8) : Bytes :=
  match letters.lookup b with
  | some letter => [backslash, letter]
  | none => if b < 32 then ascii "\\u00" ++ [hexDigit (b / 16), hexDigit (b % 16)] else [b]

/-- A byte after the backslash, where its number is one of a byte. -/
def unescape : Bytes → Option (UInt8 × Bytes)
  | [] => none
  | letter :: rest =>
    if letter = 'u'.toUInt8 then
      match rest with
      | z :: z' :: high :: low :: rest =>
        if z = '0'.toUInt8 ∧ z' = '0'.toUInt8 then some (16 * hexValue high + hexValue low, rest) else none
      | _ => none
    else ((letters.map Prod.swap).lookup letter).map fun b => (b, rest)

/-- The first byte of a string. -/
def readByte : Bytes → Option (UInt8 × Bytes)
  | [] => none
  | b :: rest => if b = backslash then unescape rest else some (b, rest)

theorem hexValue_hexDigit : ∀ n < 32,
    16 * hexValue (hexDigit (UInt8.ofNat n / 16)) + hexValue (hexDigit (UInt8.ofNat n % 16)) = UInt8.ofNat n := by
  decide

theorem unescape_control {b : UInt8} (control : b < 32) (rest : Bytes) :
    unescape ('u'.toUInt8 :: '0'.toUInt8 :: '0'.toUInt8 :: hexDigit (b / 16) :: hexDigit (b % 16) :: rest) = some (b, rest) := by
  have same := hexValue_hexDigit b.toNat (UInt8.lt_iff_toNat_lt.1 control)
  rw [UInt8.ofNat_toNat] at same
  simp [unescape, same]

theorem unescape_letter {b letter : UInt8} (known : (b, letter) ∈ letters) (rest : Bytes) :
    unescape (letter :: rest) = some (b, rest) := by
  simp only [letters, List.mem_cons, List.not_mem_nil, or_false, Prod.mk.injEq] at known
  rcases known with ⟨rfl, rfl⟩ | ⟨rfl, rfl⟩ | ⟨rfl, rfl⟩ | ⟨rfl, rfl⟩ | ⟨rfl, rfl⟩ | ⟨rfl, rfl⟩ | ⟨rfl, rfl⟩ <;> rfl

/-- **A byte that was written** is read as it was. -/
theorem readByte_escape (b : UInt8) (rest : Bytes) : readByte (escape b ++ rest) = some (b, rest) := by
  unfold escape
  split
  · rename_i letter known
    exact unescape_letter ((SortedMap.lookup_eq_some (by decide)).1 known) rest
  · rename_i unknown
    split
    · rename_i control
      exact unescape_control control rest
    · have other : b ≠ backslash := by
        rintro rfl
        cases unknown
      simp [readByte, other]

/-- A written byte does not look like the end of the string. -/
theorem escape_eq_cons (b : UInt8) : ∃ first rest, escape b = first :: rest ∧ first ≠ quote := by
  unfold escape
  split
  · exact ⟨_, _, rfl, by decide⟩
  · rename_i unknown
    split
    · exact ⟨_, _, rfl, by decide⟩
    · refine ⟨b, [], rfl, ?_⟩
      rintro rfl
      cases unknown

end Escapes

section Strings

variable {n : Nat} {s rest : Bytes}

def printString (s : Bytes) : Bytes := quote :: (s.flatMap escape ++ [quote])

/-- A string up to its closing quote, of at most so many bytes. -/
def readString : Nat → Bytes → Option (Bytes × Bytes)
  | 0, _ => none
  | _, [] => none
  | n + 1, b :: rest =>
    if b = quote then some ([], rest)
    else do
      let (c, rest) ← readByte (b :: rest)
      let (s, rest) ← readString n rest
      some (c :: s, rest)

theorem readString_end : readString (n + 1) (quote :: rest) = some ([], rest) := if_pos rfl

theorem readString_escape (b : UInt8) (text : Bytes) :
    readString (n + 1) (escape b ++ text) = (readString n text).map fun read => (b :: read.1, read.2) := by
  obtain ⟨first, rest, written, other⟩ := escape_eq_cons b
  have byte := readByte_escape b text
  rw [written, List.cons_append] at byte ⊢
  rw [readString, if_neg other, byte]
  change ((readString n text).bind fun read => some (b :: read.1, read.2)) = _
  cases readString n text <;> rfl

theorem readString_printed : ∀ {n : Nat}, s.length < n → readString n (s.flatMap escape ++ quote :: rest) = some (s, rest) := by
  induction s with
  | nil =>
    intro n enough
    obtain ⟨n, rfl⟩ := Nat.exists_eq_succ_of_ne_zero (Nat.ne_of_gt enough)
    exact readString_end
  | cons b s ih =>
    intro n enough
    obtain ⟨n, rfl⟩ := Nat.exists_eq_succ_of_ne_zero (Nat.ne_of_gt (Nat.zero_lt_of_lt enough))
    rw [List.flatMap_cons, List.append_assoc, readString_escape, ih (Nat.lt_of_succ_lt_succ enough)]
    rfl

theorem length_le_printed (s : Bytes) : s.length ≤ (s.flatMap escape).length := by
  induction s with
  | nil => exact Nat.le_refl _
  | cons b s ih =>
    obtain ⟨first, rest, written, -⟩ := escape_eq_cons b
    rw [List.flatMap_cons, List.length_append, written, List.length_cons, List.length_cons]
    omega

end Strings

section Members

variable {key rest : Bytes} {value : Value}

def comma : UInt8 := ','.toUInt8

def colon : UInt8 := ':'.toUInt8

def opening : UInt8 := '{'.toUInt8

def closing : UInt8 := '}'.toUInt8

def printValue : Value → Bytes
  | .string s => printString s
  | .numberUnsigned n => decimal n.toNat
  | _ => []

def readValue : Bytes → Option (Value × Bytes)
  | [] => none
  | b :: rest =>
    if b = quote then (readString (rest.length + 1) rest).map fun read => (.string read.1, read.2)
    else
      let digits := (b :: rest).takeWhile isDigit
      if digits = [] ∨ UInt64.size ≤ Text.value digits then none
      else some (.numberUnsigned (UInt64.ofNat (Text.value digits)), (b :: rest).dropWhile isDigit)

def printMember (member : Bytes × Value) : Bytes := printString member.1 ++ colon :: printValue member.2

def readMember : Bytes → Option ((Bytes × Value) × Bytes)
  | [] => none
  | b :: rest =>
    if b = quote then
      match readString (rest.length + 1) rest with
      | some (key, c :: rest) => if c = colon then (readValue rest).map fun read => ((key, read.1), read.2) else none
      | _ => none
    else none

theorem readString_whole (s rest : Bytes) :
    readString ((s.flatMap escape ++ quote :: rest).length + 1) (s.flatMap escape ++ quote :: rest) = some (s, rest) := by
  refine readString_printed ?_
  have short := length_le_printed s
  rw [List.length_append]
  omega

/-- **A scalar that was printed** is read as it was, up to what follows it. -/
theorem readValue_printed (scalar : Scalar value) {c : UInt8} (stop : isDigit c = false) (rest : Bytes) :
    readValue (printValue value ++ c :: rest) = some (value, c :: rest) := by
  cases scalar with
  | string valid =>
    rename_i s
    have whole := readString_whole s (c :: rest)
    simp only [printValue, printString, List.cons_append, List.append_assoc, List.nil_append, readValue, if_true, whole, Option.map_some]
  | numberUnsigned n =>
    have digits := isDigit_decimal n.toNat
    obtain ⟨first, others, printed⟩ := List.exists_cons_of_ne_nil (decimal_ne_nil n.toNat)
    have other : first ≠ quote := by
      rintro rfl
      exact absurd (digits quote (printed ▸ List.mem_cons_self)) (by decide)
    have taken : (decimal n.toNat ++ c :: rest).takeWhile isDigit = decimal n.toNat := by
      rw [List.takeWhile_append_of_pos digits]
      simp [stop]
    have left : (decimal n.toNat ++ c :: rest).dropWhile isDigit = c :: rest := by
      rw [List.dropWhile_append_of_pos digits]
      simp [stop]
    have fits : ¬(decimal n.toNat = [] ∨ UInt64.size ≤ n.toNat) := not_or.2 ⟨decimal_ne_nil _, Nat.not_le.2 n.toNat_lt_size⟩
    rw [printed, List.cons_append] at taken left
    rw [printValue, printed, List.cons_append, readValue, if_neg other, taken, left, ← printed]
    simp only [value_decimal, fits, if_false, UInt64.ofNat_toNat]

theorem readMember_printed {member : Bytes × Value} (scalar : Scalar member.2) {c : UInt8} (stop : isDigit c = false) (rest : Bytes) :
    readMember (printMember member ++ c :: rest) = some (member, c :: rest) := by
  obtain ⟨key, value⟩ := member
  have whole := readString_whole key (colon :: (printValue value ++ c :: rest))
  have read := readValue_printed scalar stop rest
  simp only [printMember, printString, List.cons_append, List.append_assoc, List.nil_append, readMember, if_true, whole, read,
    Option.map_some]

end Members

section Print

variable {m members : List (Bytes × Value)}

/-- The text of members after the first. -/
def printRest (members : List (Bytes × Value)) : Bytes := members.flatMap (fun member => comma :: printMember member) ++ [closing]

def print : Value → Bytes
  | .object [] => [opening, closing]
  | .object (member :: members) => opening :: (printMember member ++ printRest members)
  | value => printValue value

def readMembers : Nat → Bytes → Option (List (Bytes × Value))
  | 0, _ => none
  | n + 1, text =>
    match readMember text with
    | some (member, c :: rest) =>
      if c = comma then (readMembers n rest).map (member :: ·)
      else if c = closing ∧ rest = [] then some [member]
      else none
    | _ => none

/-- Put a member in, over one with the same key. -/
def assign (m : List (Bytes × Value)) (member : Bytes × Value) : List (Bytes × Value) :=
  SortedMap.upsert before member.1 member.2 (fun _ => member.2) m

/-- Read an object of strings and unsigned numbers. -/
def read : Bytes → Option Value
  | [] => none
  | b :: rest =>
    if b = opening then
      if rest = [closing] then some (.object [])
      else (readMembers rest.length rest).map fun members => .object (members.foldl assign [])
    else none

theorem readMembers_printed : ∀ {n : Nat} (member : Bytes × Value), members.length < n → (∀ x ∈ member :: members, Scalar x.2) →
    readMembers n (printMember member ++ printRest members) = some (member :: members) := by
  induction members with
  | nil =>
    intro n member enough scalar
    obtain ⟨n, rfl⟩ := Nat.exists_eq_succ_of_ne_zero (Nat.ne_of_gt enough)
    have stop : isDigit closing = false := by decide
    have last := readMember_printed (scalar member List.mem_cons_self) stop []
    change readMembers (n + 1) (printMember member ++ [closing]) = some [member]
    simp [readMembers, last, show closing ≠ comma by decide]
  | cons next members ih =>
    intro n member enough scalar
    obtain ⟨n, rfl⟩ := Nat.exists_eq_succ_of_ne_zero (Nat.ne_of_gt (Nat.zero_lt_of_lt enough))
    have stop : isDigit comma = false := by decide
    have read := readMember_printed (scalar member List.mem_cons_self) stop (printMember next ++ printRest members)
    have ih := ih next (Nat.lt_of_succ_lt_succ enough) fun x hx => scalar x (List.mem_cons_of_mem _ hx)
    have text : printRest (next :: members) = comma :: (printMember next ++ printRest members) := by simp [printRest]
    rw [text, readMembers, read]
    simp [ih]

theorem upsert_last {k : Bytes} {value : Value} {f : Value → Value} (last : ∀ x ∈ m, before x.1 k) :
    SortedMap.upsert before k value f m = m ++ [(k, f value)] := by
  induction m with
  | nil => rfl
  | cons x m ih =>
    obtain ⟨first, others⟩ := List.forall_mem_cons.1 last
    have not : ¬before k x.1 := fun h => irrefl _ (trans_of before h first)
    rw [SortedMap.upsert, if_neg not, if_pos first, ih others, List.cons_append]

/-- Members in order stay as they are. -/
theorem foldl_assign : ∀ {m : List (Bytes × Value)}, SortedMap.Sorted before (m ++ members) →
    members.foldl assign m = m ++ members := by
  induction members with
  | nil => exact fun _ => (List.append_nil _).symm
  | cons member members ih =>
    intro m sorted
    have last : ∀ x ∈ m, before x.1 member.1 := fun x hx =>
      (List.pairwise_append.1 sorted).2.2 x hx member List.mem_cons_self
    have step : assign m member = m ++ [member] := upsert_last last
    rw [List.foldl_cons, step, ih (by simpa using sorted), List.append_assoc, List.singleton_append]

theorem length_le_printRest (members : List (Bytes × Value)) : members.length < (printRest members).length := by
  induction members with
  | nil => exact Nat.zero_lt_one
  | cons member members ih =>
    have text : printRest (member :: members) = comma :: (printMember member ++ printRest members) := by simp [printRest]
    rw [text, List.length_cons, List.length_cons, List.length_append]
    omega

/-- **A printed object** is read as it was. -/
theorem read_print {value : Value} (flat : Flat value) : read (print value) = some value := by
  cases flat with
  | object sorted keys values =>
    rename_i members
    cases members with
    | nil => rfl
    | cons member members =>
      have short := length_le_printRest members
      have enough : members.length < (printMember member ++ printRest members).length := by
        rw [List.length_append]
        omega
      have whole := readMembers_printed member enough values
      have more : printMember member ++ printRest members ≠ [closing] := by
        rw [printMember, printString, List.cons_append, List.cons_append]
        exact fun same => absurd (List.cons.inj same).1 (by decide)
      rw [print, read, if_pos rfl, if_neg more, whole, Option.map_some]
      rw [foldl_assign sorted, List.nil_append]

end Print

end Json
