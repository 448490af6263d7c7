import DemoExchange.Lib.Json

/-!
# Records on one line

An object is printed and read back member by member, for values of any kind
whose text can be told from what follows it. The kind used here is a field that
may be null, and its records take one line each.
-/

namespace Json
set_option autoImplicit false
open Text

section Records

variable (print : Value → Bytes) (read : Bytes → Option (Value × Bytes))

def printMemberBy (member : Bytes × Value) : Bytes := printString member.1 ++ colon :: print member.2

def printRestBy (members : List (Bytes × Value)) : Bytes :=
  members.flatMap (fun member => comma :: printMemberBy print member) ++ [closing]

/-- The text of an object. -/
def printRecord : List (Bytes × Value) → Bytes
  | [] => [opening, closing]
  | member :: members => opening :: (printMemberBy print member ++ printRestBy print members)

def readMemberBy : Bytes → Option ((Bytes × Value) × Bytes)
  | [] => none
  | b :: rest =>
    if b = quote then
      match readString (rest.length + 1) rest with
      | some (key, c :: rest) => if c = colon then (read rest).map fun value => ((key, value.1), value.2) else none
      | _ => none
    else none

def readMembersBy : Nat → Bytes → Option (List (Bytes × Value))
  | 0, _ => none
  | n + 1, text =>
    match readMemberBy read text with
    | some (member, c :: rest) =>
      if c = comma then (readMembersBy n rest).map (member :: ·)
      else if c = closing ∧ rest = [] then some [member]
      else none
    | _ => none

/-- Read an object, to the end of the text. -/
def readRecord : Bytes → Option Value
  | [] => none
  | b :: rest =>
    if b = opening then
      if rest = [closing] then some (.object [])
      else (readMembersBy read rest.length rest).map fun members => .object (members.foldl assign [])
    else none

/-- A value of the kind is read as it was printed, up to what follows it. -/
def Reads (Good : Value → Prop) : Prop :=
  ∀ value, Good value → ∀ c : UInt8, isDigit c = false → ∀ rest : Bytes, read (print value ++ c :: rest) = some (value, c :: rest)

variable {print read} {Good : Value → Prop} {members : List (Bytes × Value)}

theorem readMemberBy_printed (reads : Reads print read Good) {member : Bytes × Value} (good : Good member.2) {c : UInt8}
    (stop : isDigit c = false) (rest : Bytes) : readMemberBy read (printMemberBy print member ++ c :: rest) = some (member, c :: rest) := by
  obtain ⟨key, value⟩ := member
  have whole := readString_whole key (colon :: (print value ++ c :: rest))
  have back := reads value good c stop rest
  simp only [printMemberBy, printString, List.cons_append, List.append_assoc, List.nil_append, readMemberBy, if_true, whole, back,
    Option.map_some]

theorem printRestBy_cons (member : Bytes × Value) :
    printRestBy print (member :: members) = comma :: (printMemberBy print member ++ printRestBy print members) := by
  simp [printRestBy]

theorem readMembersBy_printed (reads : Reads print read Good) : ∀ {n : Nat} (member : Bytes × Value), members.length < n →
    (∀ x ∈ member :: members, Good x.2) →
      readMembersBy read n (printMemberBy print member ++ printRestBy print members) = some (member :: members) := by
  induction members with
  | nil =>
    intro n member enough good
    obtain ⟨n, rfl⟩ := Nat.exists_eq_succ_of_ne_zero (Nat.ne_of_gt enough)
    have last := readMemberBy_printed reads (good member List.mem_cons_self) (show isDigit closing = false by decide) []
    change readMembersBy read (n + 1) (printMemberBy print member ++ [closing]) = some [member]
    simp [readMembersBy, last, show closing ≠ comma by decide]
  | cons next members ih =>
    intro n member enough good
    obtain ⟨n, rfl⟩ := Nat.exists_eq_succ_of_ne_zero (Nat.ne_of_gt (Nat.zero_lt_of_lt enough))
    have first := readMemberBy_printed reads (good member List.mem_cons_self) (show isDigit comma = false by decide)
      (printMemberBy print next ++ printRestBy print members)
    have others := ih next (Nat.lt_of_succ_lt_succ enough) fun x hx => good x (List.mem_cons_of_mem _ hx)
    rw [printRestBy_cons, readMembersBy, first]
    simp [others]

theorem length_le_printRestBy (print : Value → Bytes) (members : List (Bytes × Value)) :
    members.length < (printRestBy print members).length := by
  induction members with
  | nil => exact Nat.zero_lt_one
  | cons member members ih =>
    rw [printRestBy_cons, List.length_cons, List.length_cons, List.length_append]
    omega

/-- **A printed record** is read as it was. -/
theorem readRecord_printed (reads : Reads print read Good) (sorted : SortedMap.Sorted before members)
    (good : ∀ x ∈ members, Good x.2) : readRecord read (printRecord print members) = some (.object members) := by
  cases members with
  | nil => rfl
  | cons member members =>
    have short := length_le_printRestBy print members
    have enough : members.length < (printMemberBy print member ++ printRestBy print members).length := by
      rw [List.length_append]
      omega
    have whole := readMembersBy_printed reads member enough good
    have more : printMemberBy print member ++ printRestBy print members ≠ [closing] := by
      rw [printMemberBy, printString, List.cons_append, List.cons_append]
      exact fun same => absurd (List.cons.inj same).1 (by decide)
    rw [printRecord, readRecord, if_pos rfl, if_neg more, whole, Option.map_some, foldl_assign sorted, List.nil_append]

end Records

section Lines

variable {print : Value → Bytes} {Good : Value → Prop}

def lineFeed : UInt8 := '\n'.toUInt8

theorem escape_one_line : ∀ n < 256, lineFeed ∉ escape (UInt8.ofNat n) := by
  decide +kernel

theorem printString_one_line (s : Bytes) : lineFeed ∉ printString s := by
  rw [printString, List.mem_cons, List.mem_append, List.mem_flatMap, List.mem_singleton]
  rintro (start | ⟨b, -, inside⟩ | stop)
  · exact absurd start (by decide)
  · have whole := escape_one_line b.toNat b.toNat_lt
    rw [UInt8.ofNat_toNat] at whole
    exact whole inside
  · exact absurd stop (by decide)

theorem printMemberBy_one_line {member : Bytes × Value} (line : lineFeed ∉ print member.2) : lineFeed ∉ printMemberBy print member := by
  rw [printMemberBy, List.mem_append, List.mem_cons]
  rintro (key | mark | value)
  · exact printString_one_line _ key
  · exact absurd mark (by decide)
  · exact line value

/-- A record is printed on one line when its values are. -/
theorem printRecord_one_line {members : List (Bytes × Value)} (lines : ∀ x ∈ members, lineFeed ∉ print x.2) :
    lineFeed ∉ printRecord print members := by
  have rest : ∀ {members : List (Bytes × Value)}, (∀ x ∈ members, lineFeed ∉ print x.2) → lineFeed ∉ printRestBy print members := by
    intro members lines
    rw [printRestBy, List.mem_append, List.mem_flatMap, List.mem_singleton]
    rintro (⟨member, inside, mark⟩ | mark)
    · rcases List.mem_cons.1 mark with mark | mark
      · exact absurd mark (by decide)
      · exact printMemberBy_one_line (lines member inside) mark
    · exact absurd mark (by decide)
  cases members with
  | nil => exact fun mark => absurd (show lineFeed ∈ [opening, closing] from mark) (by decide)
  | cons member members =>
    obtain ⟨first, others⟩ := List.forall_mem_cons.1 lines
    rw [printRecord, List.mem_cons, List.mem_append]
    rintro (mark | mark | mark)
    · exact absurd mark (by decide)
    · exact printMemberBy_one_line first mark
    · exact rest others mark

end Lines

section Nullable

/-- A scalar, or null. -/
inductive Nullable : Value → Prop where
  | null : Nullable .null
  | scalar {value : Value} (scalar : Scalar value) : Nullable value

/-- An object of fields. -/
inductive Record : Value → Prop where
  | object {members : List (Bytes × Value)} (sorted : SortedMap.Sorted before members)
      (keys : ∀ x ∈ members, ValidUtf8 x.1) (values : ∀ x ∈ members, Nullable x.2) : Record (.object members)

theorem record_object {l : List (Bytes × Value)} (once : (l.map Prod.fst).Nodup) (keys : ∀ x ∈ l, ValidUtf8 x.1)
    (values : ∀ x ∈ l, Nullable x.2) : Record (object l) := by
  have members := mem_foldl_emplace (l := l) List.Pairwise.nil once (by simp)
  refine .object (foldl_emplace_sorted List.Pairwise.nil) (fun x member => ?_) fun x member => ?_
  · exact keys x (((members x).1 member).resolve_left List.not_mem_nil)
  · exact values x (((members x).1 member).resolve_left List.not_mem_nil)

def printNullable : Value → Bytes
  | .null => ascii "null"
  | value => printValue value

def readNullable (text : Bytes) : Option (Value × Bytes) :=
  if text.take 4 = ascii "null" then some (.null, text.drop 4) else readValue text

theorem printValue_starts {value : Value} (scalar : Scalar value) :
    ∃ first rest, printValue value = first :: rest ∧ first ≠ 'n'.toUInt8 := by
  cases scalar with
  | string valid => exact ⟨quote, _, rfl, by decide⟩
  | numberUnsigned n =>
    obtain ⟨first, rest, printed⟩ := List.exists_cons_of_ne_nil (decimal_ne_nil n.toNat)
    have digit := isDigit_decimal n.toNat first (printed ▸ List.mem_cons_self)
    refine ⟨first, rest, printed, ?_⟩
    rintro rfl
    exact absurd digit (by decide)

theorem readNullable_printed : Reads printNullable readNullable Nullable := by
  intro value field c stop rest
  cases field with
  | null => rfl
  | scalar scalar =>
    have back := readValue_printed scalar stop rest
    have other : (printValue value ++ c :: rest).take 4 ≠ ascii "null" := by
      obtain ⟨first, others, printed, letter⟩ := printValue_starts scalar
      rw [printed, List.cons_append, List.take_succ_cons]
      exact fun same => letter (List.cons.inj same).1
    have scalarText : printNullable value = printValue value := by cases scalar <;> rfl
    rw [scalarText, readNullable, if_neg other, back]

/-- A field is printed on one line. -/
theorem printNullable_one_line {value : Value} (field : Nullable value) : lineFeed ∉ printNullable value := by
  cases field with
  | null => decide
  | scalar scalar =>
    cases scalar with
    | string valid => exact printString_one_line _
    | numberUnsigned n => exact fun inside => absurd (isDigit_decimal n.toNat lineFeed inside) (by decide)

end Nullable

end Json
