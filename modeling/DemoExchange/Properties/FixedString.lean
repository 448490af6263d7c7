import DemoExchange.Lab.FixedStringBuffer
import Mathlib.Data.List.Infix

/-!
# Fixed strings are canonical

Whatever chain of constructions and assignments a fixed string comes from, its
buffer is the one that its content has: the length, the content, and zeros. So
strings that compare equal are the same bytes, and hash alike.
-/

namespace DemoExchange.Properties
set_option autoImplicit false
open Text Lab

section Buffers

variable {n m : MaxSize} {content : Bytes}

/-- The buffer of a content. -/
def canonical (n : MaxSize) (content : Bytes) : Bytes :=
  UInt8.ofNat content.length :: (content ++ List.replicate (n.val + 1 - content.length) 0)

theorem length_canonical (fits : content.length ≤ n) : (canonical n content).length = n + 2 := by
  simp only [canonical, List.length_cons, List.length_append, List.length_replicate]
  omega

theorem setLength_blank (size : Nat) : setLength size (blank n) = UInt8.ofNat size :: List.replicate (n.val + 1) 0 := by
  rw [blank, List.replicate_succ, setLength, List.set_cons_zero]

/-- A content copied behind its length. -/
theorem copyTo_length (b : UInt8) :
    copyTo 1 content (b :: List.replicate (n.val + 1) 0) = b :: (content ++ List.replicate (n.val + 1 - content.length) 0) := by
  rw [copyTo, Nat.add_comm 1, List.drop_succ_cons, List.drop_replicate]
  rfl

/-- A buffer copied over one that is not shorter. -/
theorem copyTo_canonical {buffer : Bytes} (fits : content.length ≤ m) :
    copyTo 0 (canonical m content) buffer = canonical m content ++ buffer.drop (m.val + 2) := by
  rw [copyTo, length_canonical fits, Nat.zero_add]
  rfl

theorem canonical_append (fits : content.length ≤ m) (wider : m ≤ n) :
    canonical m content ++ List.replicate (n.val - m.val) 0 = canonical n content := by
  have room : m.val + 1 - content.length + (n.val - m.val) = n.val + 1 - content.length := by
    have := Fin.le_def.1 wider
    omega
  rw [canonical, List.cons_append, List.append_assoc, List.replicate_append_replicate, room]
  rfl

/-- The length byte holds the length. -/
theorem toNat_length (fits : content.length ≤ n) : (UInt8.ofNat content.length).toNat = content.length := by
  have small := n.isLt
  rw [UInt8.toNat_ofNat', Nat.mod_eq_of_lt]
  omega

end Buffers

section Operations

variable {n m : MaxSize} {p q : FixedStringTruncationPolicy} {content old : Bytes}

/-- The string is that of a content. -/
structure Carries (fs : FixedStringBuffer n p) (content : Bytes) : Prop where
  fits : content.length ≤ n
  buffer : fs.buffer = canonical n content

theorem Carries.size {fs : FixedStringBuffer n p} (carries : Carries fs content) : fs.size = content.length := by
  rw [FixedStringBuffer.size, carries.buffer]
  exact toNat_length carries.fits

theorem Carries.toStringView {fs : FixedStringBuffer n p} (carries : Carries fs content) : fs.toStringView = content := by
  rw [FixedStringBuffer.toStringView, carries.size, carries.buffer]
  exact List.take_left

theorem carries_new : Carries (.new : FixedStringBuffer n p) [] := ⟨Nat.zero_le _, rfl⟩

theorem carries_ofLiteral (fits : content.length ≤ n) : Carries (.ofLiteral content : FixedStringBuffer n p) content := by
  refine ⟨fits, ?_⟩
  have written := @copyTo_length n content 0
  rw [FixedStringBuffer.ofLiteral, blank, List.replicate_succ, written]
  rfl

theorem carries_fromStringView (sv : Bytes) : Carries (.fromStringView sv : FixedStringBuffer n p) (sv.take n) := by
  have size : (sv.take n).length = min sv.length n := by rw [List.length_take, Nat.min_comm]
  refine ⟨by omega, ?_⟩
  have taken : sv.take (min sv.length n) = sv.take n := by
    rw [List.take_eq_take_iff]
    omega
  rw [FixedStringBuffer.fromStringView, setLength_blank, taken, ← size]
  exact copyTo_length _

theorem carries_convert {other : FixedStringBuffer m q} (carries : Carries other content) (wider : m ≤ n) :
    Carries (other.convert : FixedStringBuffer n p) content := by
  refine ⟨Nat.le_trans carries.fits wider, ?_⟩
  have rest : n.val + 2 - (m.val + 2) = n.val - m.val := by omega
  rw [FixedStringBuffer.convert, carries.buffer, copyTo_canonical carries.fits, blank, List.drop_replicate, rest]
  exact canonical_append carries.fits wider

/-- What an assignment leaves of the longer content is overwritten with zeros. -/
theorem carries_assignFrom {fs : FixedStringBuffer n p} {other : FixedStringBuffer m q} (carries : Carries other content)
    (before : Carries fs old) (wider : m ≤ n) : Carries (fs.assignFrom other) content := by
  refine ⟨Nat.le_trans carries.fits wider, ?_⟩
  have short := length_canonical carries.fits
  have long := length_canonical before.fits
  have narrower := Fin.le_def.1 wider
  have rest : (canonical m content ++ (canonical n old).drop (m.val + 2)).length - (m.val + 2) = n.val - m.val := by
    rw [List.length_append, List.length_drop]
    omega
  rw [FixedStringBuffer.assignFrom, carries.buffer, before.buffer, copyTo_canonical carries.fits]
  simp only [clearFrom, rest]
  rw [List.take_left' short]
  exact canonical_append carries.fits wider

/-- A text without a suffix, if it has it. -/
def withoutSuffix (chars content : Bytes) : Bytes :=
  if chars <:+ content then content.take (content.length - chars.length) else content

@[simp] theorem withoutSuffix_append (content chars : Bytes) : withoutSuffix chars (content ++ chars) = content := by
  rw [withoutSuffix, if_pos (List.suffix_append _ _), List.length_append, Nat.add_sub_cancel]
  exact List.take_left

theorem length_withoutSuffix (chars content : Bytes) : (withoutSuffix chars content).length ≤ content.length := by
  unfold withoutSuffix
  split
  · exact List.length_take_le' _ _
  · exact Nat.le_refl _

theorem carries_removeSuffix {fs : FixedStringBuffer n p} (carries : Carries fs content) (chars : Bytes) :
    Carries (fs.removeSuffix chars) (withoutSuffix chars content) := by
  refine ⟨Nat.le_trans (length_withoutSuffix chars content) carries.fits, ?_⟩
  rw [FixedStringBuffer.removeSuffix, carries.toStringView, ← withoutSuffix, setLength_blank]
  exact copyTo_length _

end Operations

section Chains

variable {n : MaxSize} {p : FixedStringTruncationPolicy}

/-- The content that the operations of a chain specify. -/
def text {n : MaxSize} {p : FixedStringTruncationPolicy} : Chain n p → Bytes
  | .new => []
  | .literal str _ => str
  | .stringView sv => sv.take n
  | .truncateFrom sv => sv.take n
  | .fromView sv => sv
  | .fromIntegral number => number.format
  | .copy other => text other
  | .move other => text other
  | .assign _ other => text other
  | .moveAssign _ other => text other
  | .convert other _ => text other
  | .convertMove other _ => text other
  | .assignFrom _ other _ => text other
  | .moveAssignFrom _ other _ => text other
  | .removeSuffix value chars => withoutSuffix chars (text value)

/-- The construction from a text that the value descends from: its size and the text. -/
def origin {n : MaxSize} {p : FixedStringTruncationPolicy} : Chain n p → Option (MaxSize × Bytes)
  | .new => none
  | .literal str _ => some (n, str)
  | .stringView sv => some (n, sv)
  | .truncateFrom sv => some (n, sv)
  | .fromView sv => some (n, sv)
  | .fromIntegral _ => none
  | .copy other => origin other
  | .move other => origin other
  | .assign _ other => origin other
  | .moveAssign _ other => origin other
  | .convert other _ => origin other
  | .convertMove other _ => origin other
  | .assignFrom _ other _ => origin other
  | .moveAssignFrom _ other _ => origin other
  | .removeSuffix value _ => origin value

/-- That construction cut its text. -/
def Cut (chain : Chain n p) : Prop := ∃ size source, origin chain = some (size, source) ∧ size < source.length

/-- A string with the content and the flag of a chain. -/
structure Made (chain : Chain n p) (fs : FixedStringBuffer n p) : Prop where
  carries : Carries fs (text chain)
  truncated : fs.truncated = true ↔ Cut chain

theorem cut_text {size : MaxSize} {source : Bytes} {chain : Chain n p} (from' : origin chain = some (size, source)) :
    Cut chain ↔ size < source.length := by
  constructor
  · rintro ⟨size', source', same, cut⟩
    cases from'.symm.trans same
    exact cut
  · exact fun cut => ⟨size, source, from', cut⟩

theorem not_cut {chain : Chain n p} (none : origin chain = none) : ¬Cut chain := by
  rintro ⟨size, source, same, -⟩
  rw [none] at same
  cases same

theorem made_fromStringView {chain : Chain n p} {sv : Bytes} (from' : origin chain = some (n, sv)) (content : text chain = sv.take n) :
    Made chain (.fromStringView sv) := by
  refine ⟨content ▸ carries_fromStringView sv, ?_⟩
  rw [cut_text from']
  exact decide_eq_true_iff

theorem made_fromView {sv : Bytes} {fs : FixedStringBuffer n .strict} (made : FixedStringBuffer.fromView sv = .ok fs) :
    Made (.fromView sv) fs := by
  unfold FixedStringBuffer.fromView at made
  split at made
  · cases made
  · rename_i fits
    cases made
    exact made_fromStringView rfl (List.take_of_length_le (Nat.not_lt.1 fits)).symm

theorem made_fromIntegral {number : Integral} {fs : FixedStringBuffer n p} (made : FixedStringBuffer.fromIntegral number = .ok fs) :
    Made (.fromIntegral number) fs := by
  unfold FixedStringBuffer.fromIntegral at made
  simp only at made
  split at made
  · cases made
  · rename_i fits
    cases made
    have whole : number.format.take n = number.format := List.take_of_length_le (Nat.not_lt.1 fits)
    have literal := carries_ofLiteral (n := n) (p := p) (Nat.not_lt.1 fits)
    rw [whole]
    exact ⟨literal, iff_of_false Bool.false_ne_true (not_cut rfl)⟩

/-- **Every chain** makes the string that its operations specify. -/
theorem made_of_eval {n : MaxSize} {p : FixedStringTruncationPolicy} (chain : Chain n p) :
    ∀ {fs : FixedStringBuffer n p}, chain.eval = .ok fs → Made chain fs := by
  induction chain with
  | new =>
    rintro _ ⟨⟩
    exact ⟨carries_new, iff_of_false Bool.false_ne_true (not_cut rfl)⟩
  | literal str fits =>
    rintro _ ⟨⟩
    refine ⟨carries_ofLiteral fits, iff_of_false Bool.false_ne_true ?_⟩
    rw [cut_text rfl]
    exact Nat.not_lt.2 fits
  | stringView sv =>
    rintro _ ⟨⟩
    exact made_fromStringView rfl rfl
  | truncateFrom sv =>
    rintro _ ⟨⟩
    exact made_fromStringView rfl rfl
  | fromView sv => exact made_fromView
  | fromIntegral number => exact made_fromIntegral
  | copy other ih =>
    intro fs evaluated
    obtain ⟨carries, truncated⟩ := ih evaluated
    exact ⟨carries, truncated⟩
  | move other ih =>
    intro fs evaluated
    obtain ⟨carries, truncated⟩ := ih evaluated
    exact ⟨carries, truncated⟩
  | assign target other _ ih =>
    intro fs evaluated
    obtain ⟨-, -, evaluated⟩ := Result.bind_eq_ok.1 evaluated
    obtain ⟨carries, truncated⟩ := ih evaluated
    exact ⟨carries, truncated⟩
  | moveAssign target other _ ih =>
    intro fs evaluated
    obtain ⟨-, -, evaluated⟩ := Result.bind_eq_ok.1 evaluated
    obtain ⟨carries, truncated⟩ := ih evaluated
    exact ⟨carries, truncated⟩
  | convert other wider ih =>
    intro fs evaluated
    obtain ⟨source, evaluated, made⟩ := Result.bind_eq_ok.1 evaluated
    obtain ⟨carries, truncated⟩ := ih evaluated
    cases made
    exact ⟨carries_convert carries wider, truncated⟩
  | convertMove other wider ih =>
    intro fs evaluated
    obtain ⟨source, evaluated, made⟩ := Result.bind_eq_ok.1 evaluated
    obtain ⟨carries, truncated⟩ := ih evaluated
    cases made
    exact ⟨carries_convert carries wider, truncated⟩
  | assignFrom target other wider ihTarget ih =>
    intro fs evaluated
    obtain ⟨before, target, evaluated⟩ := Result.bind_eq_ok.1 evaluated
    obtain ⟨source, evaluated, made⟩ := Result.bind_eq_ok.1 evaluated
    obtain ⟨carries, truncated⟩ := ih evaluated
    cases made
    exact ⟨carries_assignFrom carries (ihTarget target).carries wider, truncated⟩
  | moveAssignFrom target other wider ihTarget ih =>
    intro fs evaluated
    obtain ⟨before, target, evaluated⟩ := Result.bind_eq_ok.1 evaluated
    obtain ⟨source, evaluated, made⟩ := Result.bind_eq_ok.1 evaluated
    obtain ⟨carries, truncated⟩ := ih evaluated
    cases made
    exact ⟨carries_assignFrom carries (ihTarget target).carries wider, truncated⟩
  | removeSuffix value chars ih =>
    intro fs evaluated
    obtain ⟨source, evaluated, made⟩ := Result.bind_eq_ok.1 evaluated
    obtain ⟨carries, truncated⟩ := ih evaluated
    cases made
    exact ⟨carries_removeSuffix carries chars, truncated⟩

/-- The factories of a chain are given texts that fit. -/
def Accepted {n : MaxSize} {p : FixedStringTruncationPolicy} : Chain n p → Prop
  | .new | .literal _ _ | .stringView _ | .truncateFrom _ => True
  | .fromView sv => sv.length ≤ n
  | .fromIntegral number => number.format.length ≤ n
  | .copy other => Accepted other
  | .move other => Accepted other
  | .assign target other => Accepted target ∧ Accepted other
  | .moveAssign target other => Accepted target ∧ Accepted other
  | .convert other _ => Accepted other
  | .convertMove other _ => Accepted other
  | .assignFrom target other _ => Accepted target ∧ Accepted other
  | .moveAssignFrom target other _ => Accepted target ∧ Accepted other
  | .removeSuffix value _ => Accepted value

theorem exists_bind {α β : Type} {x : Result α} {f : α → Result β} {first second : Prop} (ran : (∃ a, x = .ok a) ↔ first)
    (rest : ∀ a, (∃ b, f a = .ok b) ↔ second) : (∃ b, (x >>= f) = .ok b) ↔ first ∧ second := by
  constructor
  · rintro ⟨b, returned⟩
    obtain ⟨a, here, there⟩ := Result.bind_eq_ok.1 returned
    exact ⟨ran.1 ⟨a, here⟩, (rest a).1 ⟨b, there⟩⟩
  · rintro ⟨one, two⟩
    obtain ⟨a, here⟩ := ran.2 one
    obtain ⟨b, there⟩ := (rest a).2 two
    exact ⟨b, Result.bind_eq_ok.2 ⟨a, here, there⟩⟩

theorem exists_return {α β : Type} {x : Result α} {f : α → β} {first : Prop} (ran : (∃ a, x = .ok a) ↔ first) :
    (∃ b, (do let a ← x; return f a) = .ok b) ↔ first := by
  have all := exists_bind (f := fun a => Except.ok (f a)) ran fun a => iff_of_true ⟨f a, rfl⟩ trivial
  rwa [and_true] at all

theorem exists_guard {α : Type} {refused : Prop} [Decidable refused] {error : Error} {a : α} :
    (∃ b, (if refused then .error error else .ok a : Result α) = .ok b) ↔ ¬refused := by
  by_cases refuses : refused
  · rw [if_pos refuses]
    exact iff_of_false nofun (not_not.2 refuses)
  · rw [if_neg refuses]
    exact iff_of_true ⟨a, rfl⟩ refuses

/-- **A chain leaves a string** unless a factory refuses its text. -/
theorem exists_eval {n : MaxSize} {p : FixedStringTruncationPolicy} (chain : Chain n p) :
    (∃ fs, chain.eval = .ok fs) ↔ Accepted chain := by
  induction chain with
  | new => exact iff_of_true ⟨_, rfl⟩ trivial
  | literal str fits => exact iff_of_true ⟨_, rfl⟩ trivial
  | stringView sv => exact iff_of_true ⟨_, rfl⟩ trivial
  | truncateFrom sv => exact iff_of_true ⟨_, rfl⟩ trivial
  | fromView sv => exact exists_guard.trans Nat.not_lt
  | fromIntegral number => exact exists_guard.trans Nat.not_lt
  | copy other ih => exact ih
  | move other ih => exact ih
  | assign target other ihTarget ih => exact exists_bind ihTarget fun _ => ih
  | moveAssign target other ihTarget ih => exact exists_bind ihTarget fun _ => ih
  | convert other wider ih => exact exists_return ih
  | convertMove other wider ih => exact exists_return ih
  | assignFrom target other wider ihTarget ih =>
    exact exists_bind ihTarget fun _ => exists_return ih
  | moveAssignFrom target other wider ihTarget ih =>
    exact exists_bind ihTarget fun _ => exists_return ih
  | removeSuffix value chars ih => exact exists_return ih

end Chains

section Refinement

variable {n : MaxSize} {p : FixedStringTruncationPolicy}

/-- The bytes of a string: the length, the content behind it, and zeros to the end. -/
structure Canonical (fs : FixedStringBuffer n p) (content : Bytes) : Prop where
  size : fs.size ≤ n
  length : fs.buffer.length = n.val + 2
  content : (fs.buffer.drop 1).take fs.size = content
  rest : ∀ i, fs.size < i → i < n.val + 2 → fs.buffer[i]? = some 0

theorem Carries.canonical {fs : FixedStringBuffer n p} {content : Bytes} (carries : Carries fs content) : Canonical fs content where
  size := by rw [carries.size]; exact carries.fits
  length := by rw [carries.buffer]; exact length_canonical carries.fits
  content := carries.toStringView
  rest := by
    intro i later inside
    have fits := carries.fits
    rw [carries.size] at later
    obtain ⟨k, rfl⟩ : ∃ k, i = content.length + 1 + k := ⟨i - (content.length + 1), by omega⟩
    rw [carries.buffer, DemoExchange.Properties.canonical, Nat.add_right_comm, List.getElem?_cons_succ,
      List.getElem?_append_right (Nat.le_add_right _ _), List.getElem?_replicate, if_pos]
    omega

/-- Equal strings are the same bytes. -/
theorem Carries.eq_iff {fs fs' : FixedStringBuffer n p} {content content' : Bytes} (carries : Carries fs content)
    (carries' : Carries fs' content') : fs.eq fs' = true ↔ fs.buffer = fs'.buffer := by
  rw [FixedStringBuffer.eq, decide_eq_true_iff]
  constructor
  · intro same
    rw [carries.toStringView, carries'.toStringView] at same
    rw [carries.buffer, carries'.buffer, same]
  · intro same
    rw [FixedStringBuffer.toStringView, FixedStringBuffer.toStringView, FixedStringBuffer.size, FixedStringBuffer.size, same]

/-- The value of a string, which is all that the messages keep of it. -/
theorem fromView_content (sv : Bytes) :
    (FixedStringBuffer.fromView sv : Result (FixedStringBuffer n .strict)).map FixedStringBuffer.toStringView =
      (FixedString.fromView n sv).map FixedString.content := by
  unfold FixedStringBuffer.fromView FixedString.fromView
  by_cases fits : sv.length ≤ n
  · have carries := carries_fromStringView (n := n) (p := .strict) sv
    rw [List.take_of_length_le fits] at carries
    rw [if_neg (Nat.not_lt.2 fits), dif_pos fits]
    exact congrArg Except.ok carries.toStringView
  · rw [if_pos (Nat.not_le.1 fits), dif_neg fits]
    rfl

end Refinement

/-- **Fixed strings are canonical.** A string that a chain of constructions and
assignments leaves has the bytes of the content that the chain specifies and
nothing else, and is flagged exactly when the text it descends from was cut.
So two strings of one type compare equal exactly when their buffers are the
same, and then hash alike, whatever the hash does with the bytes. -/
theorem fixed_string_canonical {n : MaxSize} {p : FixedStringTruncationPolicy} (chain chain' : Chain n p)
    (fs fs' : FixedStringBuffer n p) (left : chain.eval = .ok fs) (left' : chain'.eval = .ok fs') :
    Canonical fs (text chain) ∧ (fs.truncated = true ↔ Cut chain) ∧ (fs.eq fs' = true ↔ fs.buffer = fs'.buffer) ∧
      (fs.eq fs' = true → ∀ hashRange, fs.stdHash hashRange = fs'.stdHash hashRange ∧ fs.hashValue hashRange = fs'.hashValue hashRange) := by
  obtain ⟨carries, truncated⟩ := made_of_eval chain left
  obtain ⟨carries', -⟩ := made_of_eval chain' left'
  have same := carries.eq_iff carries'
  refine ⟨carries.canonical, truncated, same, fun equal hashRange => ?_⟩
  have hashes : hashRange fs.buffer = hashRange fs'.buffer := congrArg hashRange (same.1 equal)
  exact ⟨hashes, hashes⟩

/-- A shorter string, cut and without its suffix, assigned over a longer one. -/
def shrunk : Chain 8 .strict :=
  .assignFrom (.literal (ascii "PETR4.SA") (by decide)) (.removeSuffix (.truncateFrom (ascii "VALE35") : Chain 5 .strict) (ascii "3"))
    (by decide)

/-- The bytes of `"VALE"`. -/
def vale : Bytes := [4, 86, 65, 76, 69, 0, 0, 0, 0, 0]

theorem fixed_string_canonical_shrunk :
    Canonical (⟨vale, true⟩ : FixedStringBuffer 8 .strict) (text shrunk) ∧ (true = true ↔ Cut shrunk) ∧
      (FixedStringBuffer.eq ⟨vale, true⟩ (⟨vale, false⟩ : FixedStringBuffer 8 .strict) = true ↔ vale = vale) ∧
      (FixedStringBuffer.eq ⟨vale, true⟩ (⟨vale, false⟩ : FixedStringBuffer 8 .strict) = true → ∀ hashRange : Bytes → UInt64,
        hashRange vale = hashRange vale ∧ hashRange vale = hashRange vale) :=
  fixed_string_canonical shrunk (.literal (ascii "VALE") (by decide)) ⟨vale, true⟩ ⟨vale, false⟩ (by decide) (by decide)

end DemoExchange.Properties
