import CodeSurvey.Json.Printer
import CodeSurvey.Json.Reader
import CodeSurvey.Proofs.ShortestDecimal

namespace CodeSurvey

/-- A number as it is spelled. -/
structure Spelling where
  negative : Bool
  whole : List Char
  fraction : Option (List Char) := none
  exponent : Option (Bool × List Char) := none

namespace Spelling

open JsonReader

variable {s : Spelling} {digits rest : List Char}

def exponentText : Option (Bool × List Char) → List Char
  | none => []
  | some (negative, digits) => 'e' :: (if negative then '-' else '+') :: digits

def fractionText : Option (List Char) → List Char
  | none => []
  | some digits => '.' :: digits

def text (s : Spelling) : List Char :=
  (if s.negative then ['-'] else []) ++
    (s.whole ++ (fractionText s.fraction ++ exponentText s.exponent))

def literal (s : Spelling) : NumberLiteral :=
  ⟨s.negative, s.whole.map digitValue, s.fraction.map (·.map digitValue),
    s.exponent.map fun (negative, digits) => (negative, digits.map digitValue)⟩

structure Digits (digits : List Char) : Prop where
  nonempty : digits ≠ []
  all : ∀ c ∈ digits, c.isDigit = true

/-- What makes a number well-formed: digits at each place, and no zero before others. -/
structure Proper (s : Spelling) : Prop where
  whole : Digits s.whole
  lead : s.whole.head? = some '0' → s.whole = ['0']
  fraction : ∀ digits ∈ s.fraction, Digits digits
  exponent : ∀ e ∈ s.exponent, Digits e.2

/-- What does not continue a number. -/
def Ends (rest : List Char) : Prop :=
  ∀ c ∈ rest.head?, c.isDigit = false ∧ c ≠ '.' ∧ c ≠ 'e' ∧ c ≠ 'E'

theorem Ends.nil : Ends [] := fun _ h => nomatch h

theorem someDigits?_append (h : Digits digits) (ends : ∀ c ∈ rest.head?, c.isDigit = false) :
    someDigits? (digits ++ rest) = some (digits.map digitValue, rest) := by
  have taken : rest.takeWhile Char.isDigit = [] := by
    cases rest with
    | nil => rfl
    | cons c rest => simp [ends c rfl]
  have dropped : rest.dropWhile Char.isDigit = rest := by
    cases rest with
    | nil => rfl
    | cons c rest => simp [ends c rfl]
  have found : spanDigits (digits ++ rest) = (digits.map digitValue, rest) := by
    rw [spanDigits, List.takeWhile_append_of_pos h.all, List.dropWhile_append_of_pos h.all, taken,
      dropped, List.append_nil]
  rw [someDigits?, found]
  obtain ⟨c, cs, rfl⟩ := List.exists_cons_of_ne_nil h.nonempty
  rfl

theorem digitValue_eq_zero {c : Char} (h : c.isDigit = true) (zero : digitValue c = 0) : c = '0' := by
  obtain ⟨low, -⟩ : 48 ≤ c.val ∧ c.val ≤ 57 := by simpa [Char.isDigit] using h
  have low' : 48 ≤ c.toNat := low
  have high : c.toNat - 48 = 0 := zero
  exact Char.toNat_inj.mp (by change c.toNat = 48; omega)

theorem whole?_append (h : Digits digits) (lead : digits.head? = some '0' → digits = ['0'])
    (ends : ∀ c ∈ rest.head?, c.isDigit = false) :
    whole? (digits ++ rest) = some (digits.map digitValue, rest) := by
  rw [whole?, someDigits?_append h ends]
  split
  next eq =>
    obtain ⟨c, cs, rfl⟩ := List.exists_cons_of_ne_nil h.nonempty
    obtain ⟨⟨zero, more⟩, -⟩ := by simpa using eq
    have single := lead (by simp [digitValue_eq_zero (h.all c List.mem_cons_self) zero])
    cases single
    cases more
  next => rfl

theorem fraction?_text {fraction : Option (List Char)} (h : ∀ digits ∈ fraction, Digits digits)
    (ends : ∀ c ∈ rest.head?, c.isDigit = false ∧ c ≠ '.') :
    fraction? (fractionText fraction ++ rest) =
      some (fraction.map (·.map digitValue), rest) := by
  cases fraction with
  | none =>
    cases rest with
    | nil => rfl
    | cons c rest =>
      obtain ⟨-, ne⟩ := ends c rfl
      simp [fractionText, fraction?, ne]
  | some digits =>
    have read := someDigits?_append (h digits rfl) fun c hc => (ends c hc).1
    simp [fractionText, fraction?, read]

theorem exponent?_text {exponent : Option (Bool × List Char)}
    (h : ∀ e ∈ exponent, Digits e.2) (ends : Ends rest) :
    exponent? (exponentText exponent ++ rest) =
      some (exponent.map fun (negative, digits) => (negative, digits.map digitValue), rest) := by
  cases exponent with
  | none =>
    cases rest with
    | nil => rfl
    | cons c rest =>
      obtain ⟨-, -, ne, ne'⟩ := ends c rfl
      simp [exponentText, exponent?, ne, ne']
  | some e =>
    obtain ⟨negative, digits⟩ := e
    have read := someDigits?_append (h (negative, digits) rfl) fun c hc => (ends c hc).1
    cases negative <;> simp [exponentText, exponent?, exponentSign, read]

theorem ends_exponentText (ends : Ends rest) (exponent : Option (Bool × List Char)) :
    ∀ c ∈ (exponentText exponent ++ rest).head?, c.isDigit = false ∧ c ≠ '.' := by
  cases exponent with
  | none => exact fun c hc => ⟨(ends c hc).1, (ends c hc).2.1⟩
  | some e => simp [exponentText, show Char.isDigit 'e' = false by decide]

theorem ends_fractionText (fraction : Option (List Char))
    (ends : ∀ c ∈ rest.head?, c.isDigit = false) :
    ∀ c ∈ (fractionText fraction ++ rest).head?, c.isDigit = false := by
  cases fraction with
  | none => exact ends
  | some digits => simp [fractionText, show Char.isDigit '.' = false by decide]

theorem sign_append (negative : Bool) (h : Digits digits) (rest : List Char) :
    sign ((if negative then ['-'] else []) ++ (digits ++ rest)) = (negative, digits ++ rest) := by
  cases negative with
  | true => rfl
  | false =>
    obtain ⟨c, cs, rfl⟩ := List.exists_cons_of_ne_nil h.nonempty
    have ne : c ≠ '-' := by
      rintro rfl
      exact absurd (h.all '-' List.mem_cons_self) (by decide)
    simp [sign, ne]

theorem number?_text (h : s.Proper) (ends : Ends rest) :
    number? (s.text ++ rest) = some (s.literal, rest) := by
  have afterFraction := ends_exponentText ends s.exponent
  have afterWhole := ends_fractionText s.fraction fun c hc => (afterFraction c hc).1
  have start := sign_append s.negative h.whole
    (fractionText s.fraction ++ (exponentText s.exponent ++ rest))
  simp only [text, number?, List.append_assoc, start, whole?_append h.whole h.lead afterWhole,
    fraction?_text h.fraction afterFraction, exponent?_text h.exponent ends, Option.bind_eq_bind,
    Option.bind_some]
  rfl

theorem text_eq_cons (h : s.Proper) :
    ∃ c cs, s.text = c :: cs ∧ (c = '-' ∨ c.isDigit = true) := by
  obtain ⟨c, cs, eq⟩ := List.exists_cons_of_ne_nil h.whole.nonempty
  have digit : c.isDigit = true := h.whole.all c (eq ▸ List.mem_cons_self)
  rw [text, eq]
  cases s.negative with
  | true => exact ⟨_, _, rfl, .inl rfl⟩
  | false => exact ⟨_, _, rfl, .inr digit⟩

end Spelling

namespace NumberLiteral

variable {ds : List Nat} {l : NumberLiteral}

theorem ofDigits_append (ds es : List Nat) :
    ofDigits (ds ++ es) = es.foldl (fun n d => n * 10 + d) (ofDigits ds) := List.foldl_append

theorem ofDigits_concat (ds : List Nat) (d : Nat) : ofDigits (ds ++ [d]) = ofDigits ds * 10 + d :=
  ofDigits_append ds [d]

theorem ofDigits_lt (h : ∀ d ∈ ds, d < 10) : ofDigits ds < 10 ^ ds.length := by
  induction ds using List.reverseRecOn with
  | nil => decide
  | append_singleton ds d ih =>
    have last : d < 10 := h d (by simp)
    have before := ih fun e he => h e (List.mem_append_left _ he)
    rw [ofDigits_concat, List.length_append, List.length_singleton, Nat.pow_succ]
    omega

theorem ofDigits_zeros (k : Nat) (ds : List Nat) : ofDigits (List.replicate k 0 ++ ds) = ofDigits ds := by
  induction k with
  | zero => rfl
  | succ k ih => exact ih

theorem le_foldl (ds : List Nat) (n : Nat) : n ≤ ds.foldl (fun n d => n * 10 + d) n := by
  induction ds generalizing n with
  | nil => exact le_refl n
  | cons d ds ih =>
    have := ih (n * 10 + d)
    rw [List.foldl_cons]
    omega

theorem accumulate_of_lt {n : Nat} (h : ds.foldl (fun n d => n * 10 + d) n < significandBound) :
    accumulate n ds = (ds.foldl (fun n d => n * 10 + d) n, []) := by
  induction ds generalizing n with
  | nil => rfl
  | cons d ds ih =>
    have next : n * 10 + d < significandBound := (le_foldl ds _).trans_lt h
    rw [accumulate, if_pos next, ih h, List.foldl_cons]

/-- All digits count if there are not too many. -/
theorem asDouble?_eq {fraction : List Nat} (hf : l.fraction.getD [] = fraction)
    (h : ofDigits (l.whole ++ fraction) < significandBound) :
    l.asDouble? = double? l.negative (ofDigits (l.whole ++ fraction))
      (-fraction.length + l.givenExponent) := by
  rw [ofDigits_append] at h ⊢
  have whole := accumulate_of_lt (n := 0) ((le_foldl fraction _).trans_lt h)
  simp only [asDouble?, hf, whole, accumulate_of_lt h, ← ofDigits.eq_1, List.length_nil, Nat.sub_zero]
  congr 1
  simp

theorem value?_whole (hf : l.fraction = none) (he : l.exponent = none)
    (range : if l.negative then 0 < ofDigits l.whole ∧ ofDigits l.whole ≤ 2 ^ 63
      else ofDigits l.whole < 2 ^ 64) :
    l.value? = some (.integer (if l.negative then -ofDigits l.whole else ofDigits l.whole)) := by
  rw [value?, hf, he]
  cases negative : l.negative with
  | true =>
    rw [negative, if_pos rfl] at range
    simp [range.1, show ofDigits l.whole ≤ 9223372036854775808 from range.2]
  | false =>
    rw [negative, if_neg Bool.false_ne_true] at range
    simp [show ofDigits l.whole < 18446744073709551616 from range]

theorem value?_of_double (h : l.fraction.isSome ∨ l.exponent.isSome) :
    l.value? = l.asDouble?.map .double := by
  have notWhole : (l.fraction.isNone && l.exponent.isNone) = false := by
    rcases h with h | h <;> simp [← Option.isSome_iff_ne_none, h]
  rw [value?, notWhole, Bool.false_and, if_neg Bool.false_ne_true]

end NumberLiteral

namespace JsonNumber

/-- A number that the reader can give. -/
def Lawful : JsonNumber → Prop
  | integer n => -2 ^ 63 ≤ n ∧ n < 2 ^ 64
  | double x => x.Finite

theorem Lawful.of_value? {l : NumberLiteral} {n : JsonNumber} (h : l.value? = some n) : n.Lawful := by
  have double (h : l.asDouble?.map JsonNumber.double = some n) : n.Lawful := by
    obtain ⟨x, hx, rfl⟩ := Option.map_eq_some_iff.mp h
    exact NumberLiteral.Finite.of_double? hx
  rw [NumberLiteral.value?] at h
  cases negative : l.negative with
  | true =>
    simp only [negative, if_true] at h
    split at h
    next whole =>
      obtain ⟨-, range⟩ := (Bool.and_eq_true _ _).mp whole
      have range : 0 < NumberLiteral.ofDigits l.whole ∧ NumberLiteral.ofDigits l.whole ≤ 2 ^ 63 := by
        simpa using range
      cases h
      exact ⟨by omega, by omega⟩
    next => exact double h
  | false =>
    simp only [negative, Bool.false_eq_true, if_false] at h
    split at h
    next whole =>
      have range : NumberLiteral.ofDigits l.whole < 2 ^ 64 :=
        of_decide_eq_true ((Bool.and_eq_true _ _).mp whole).2
      cases h
      exact ⟨by omega, by omega⟩
    next => exact double h

end JsonNumber

namespace Spelling

open JsonReader NumberLiteral

variable {s : Spelling} {digits : List Char} {n : Nat} {x : Binary64}

theorem Digits.toDigits (n : Nat) : Digits (Nat.toDigits 10 n) :=
  ⟨Nat.toDigits_ne_nil, fun _ h => Nat.isDigit_of_mem_toDigits (by decide) (by decide) h⟩

theorem Digits.append {more : List Char} (h : Digits digits) (all : ∀ c ∈ more, c.isDigit = true) :
    Digits (digits ++ more) :=
  ⟨by simp [h.nonempty], fun c hc => (List.mem_append.mp hc).elim (h.all c) (all c)⟩

theorem digitValue_lt {c : Char} (h : c.isDigit = true) : digitValue c < 10 := by
  obtain ⟨-, high⟩ : 48 ≤ c.val ∧ c.val ≤ 57 := by simpa [Char.isDigit] using h
  have high' : c.toNat ≤ 57 := high
  change c.toNat - 48 < 10
  omega

theorem ofDigits_map_lt (h : ∀ c ∈ digits, c.isDigit = true) :
    ofDigits (digits.map digitValue) < 10 ^ digits.length := by
  have values : ∀ d ∈ digits.map digitValue, d < 10 :=
    List.forall_mem_map.mpr fun c hc => digitValue_lt (h c hc)
  have lt := ofDigits_lt values
  rwa [List.length_map] at lt

theorem ofDigits_toDigits (n : Nat) : ofDigits ((Nat.toDigits 10 n).map digitValue) = n := by
  rw [ofDigits, List.foldl_map]
  simp only [Nat.mul_comm _ 10]
  exact Nat.ofDigitChars_ten_toDigits

theorem toDigits_lead (h : (Nat.toDigits 10 n).head? = some '0') : Nat.toDigits 10 n = ['0'] := by
  rcases Nat.eq_zero_or_pos n with rfl | pos
  · rfl
  · obtain ⟨t, count, low, -⟩ := Binary64.digitCount_spec pos
    obtain ⟨rest, eq⟩ := List.head?_eq_some_iff.mp h
    have value := ofDigits_toDigits n
    have digits : ∀ c ∈ rest, c.isDigit = true := fun c hc =>
      (Digits.toDigits n).all c (eq ▸ List.mem_cons_of_mem _ hc)
    have small := ofDigits_map_lt digits
    rw [Binary64.digitCount, eq, List.length_cons, Nat.add_right_cancel_iff] at count
    rw [← count] at low
    rw [eq, List.map_cons] at value
    change ofDigits (rest.map digitValue) = n at value
    omega

/-- A spelling for the magnitude of a double, with a double as its value. -/
structure SpellsDouble (s : Spelling) (negative : Bool) (magnitude : List Char) : Prop where
  sign : s.negative = negative
  proper : s.Proper
  text : s.whole ++ (fractionText s.fraction ++ exponentText s.exponent) = magnitude
  value : ∃ y, s.literal.value? = some (.double y)

theorem literal_value? {fraction : List Char} {significand : Nat} {exponent : Int}
    (double : s.fraction.isSome ∨ s.exponent.isSome) (hf : s.fraction.getD [] = fraction)
    (value : ofDigits ((s.whole ++ fraction).map digitValue) = significand)
    (small : significand < 2 ^ 64) (power : -fraction.length + s.literal.givenExponent = exponent)
    (found : ∃ y, double? s.negative significand exponent = some y) :
    ∃ y, s.literal.value? = some (.double y) := by
  obtain ⟨y, found⟩ := found
  have digits : s.literal.fraction.getD [] = fraction.map digitValue := by
    subst hf
    cases h : s.fraction <;> simp [literal, h]
  have whole : s.literal.whole ++ fraction.map digitValue = (s.whole ++ fraction).map digitValue :=
    List.map_append.symm
  refine ⟨y, ?_⟩
  rw [value?_of_double (by simpa [literal] using double), asDouble?_eq digits (by rwa [whole, value]),
    whole, value, List.length_map, power]
  exact congrArg (Option.map JsonNumber.double) found

theorem givenExponent_eq (s : Spelling) {e : Int}
    (h : s.exponent = some (decide (e < 0), Nat.toDigits 10 e.natAbs)) :
    s.literal.givenExponent = e := by
  rw [NumberLiteral.givenExponent, literal, h]
  by_cases negative : e < 0
  · simp only [negative, Option.map_some, decide_true, ofDigits_toDigits]
    omega
  · simp only [negative, Option.map_some, decide_false, ofDigits_toDigits]
    omega

theorem SpellsDouble.of_point (negative : Bool) {whole fraction : List Char} (hw : Digits whole)
    (lead : whole.head? = some '0' → whole = ['0']) (hf : Digits fraction)
    (small : ofDigits ((whole ++ fraction).map digitValue) < 2 ^ 64) :
    SpellsDouble ⟨negative, whole, some fraction, none⟩ negative (whole ++ '.' :: fraction) := by
  refine ⟨rfl, ⟨hw, lead, ?_, ?_⟩, by simp [fractionText, exponentText], ?_⟩
  · intro digits h
    exact Option.some.inj h ▸ hf
  · intro e h
    cases h
  · exact literal_value? (.inl rfl) rfl rfl small rfl
      (double?_of_nonpos negative small (by simp [literal, NumberLiteral.givenExponent]))

theorem SpellsDouble.zero (negative : Bool) :
    ∃ s : Spelling, s.SpellsDouble negative ['0', '.', '0'] :=
  ⟨_, .of_point negative (.toDigits 0) (fun _ => rfl) (.toDigits 0) (by decide)⟩

theorem zeros_isDigit (k : Nat) : ∀ c ∈ List.replicate k '0', c.isDigit = true := by
  intro c hc
  rw [List.eq_of_mem_replicate hc]
  decide

theorem SpellsDouble.below_one (negative : Bool) {point : Int} (hn : n ≤ 10 ^ 17)
    (hp : point ≤ 0) :
    ∃ s : Spelling, s.SpellsDouble negative (Binary64.positional (Nat.toDigits 10 n) point) := by
  have digits := Digits.toDigits n
  have fraction : Digits (List.replicate (-point).toNat '0' ++ Nat.toDigits 10 n) :=
    ⟨by simp [digits.nonempty],
      fun c hc => (List.mem_append.mp hc).elim (zeros_isDigit _ c) (digits.all c)⟩
  have value : ofDigits ((['0'] ++ (List.replicate (-point).toNat '0' ++
      Nat.toDigits 10 n)).map digitValue) = n := by
    rw [List.map_append, List.map_append, List.map_replicate]
    exact (ofDigits_zeros (-point).toNat _).trans (ofDigits_toDigits n)
  have zero : Digits ['0'] := .toDigits 0
  rw [Binary64.positional, if_pos hp]
  exact ⟨_, .of_point negative zero (fun _ => rfl) fraction (by rw [value]; omega)⟩

theorem toDigits_head_ne (pos : 0 < n) : (Nat.toDigits 10 n).head? ≠ some '0' := by
  intro h
  have value := ofDigits_toDigits n
  rw [toDigits_lead h] at value
  exact Nat.ne_of_gt pos value.symm

theorem SpellsDouble.from_one (negative : Bool) {point : Int} (pos : 0 < n) (hn : n ≤ 10 ^ 17)
    (hp : 0 < point) (near : point ≤ 16) :
    ∃ s : Spelling, s.SpellsDouble negative (Binary64.positional (Nat.toDigits 10 n) point) := by
  have digits := Digits.toDigits n
  have value := ofDigits_toDigits n
  have lead := toDigits_head_ne pos
  generalize Nat.toDigits 10 n = ds at digits value lead
  obtain ⟨p, rfl⟩ := Int.eq_ofNat_of_zero_le hp.le
  have hp' : p ≠ 0 := by omega
  have text : Binary64.positional ds p = ds.take p ++ List.replicate (p - (ds.take p).length) '0' ++
      '.' :: (if (ds.drop p).isEmpty then ['0'] else ds.drop p) := by
    rw [Binary64.positional, if_neg (by omega), Int.toNat_natCast]
  rw [text]
  by_cases inside : p < ds.length
  · have whole : Digits (ds.take p) :=
      ⟨by simp [digits.nonempty, hp'], fun c hc => digits.all c (List.mem_of_mem_take hc)⟩
    have fraction : Digits (ds.drop p) :=
      ⟨by simpa using inside, fun c hc => digits.all c (List.mem_of_mem_drop hc)⟩
    have room : p - (ds.take p).length = 0 := by
      rw [List.length_take]
      omega
    rw [room, if_neg (by simpa using inside), List.replicate_zero, List.append_nil]
    refine ⟨_, .of_point negative whole (fun h => ?_) fraction ?_⟩
    · rw [List.head?_take, if_neg hp'] at h
      exact absurd h lead
    · rw [List.take_append_drop, value]
      omega
  · have zero : Digits ['0'] := .toDigits 0
    have whole : Digits (ds ++ List.replicate (p - ds.length) '0') :=
      digits.append (zeros_isDigit _)
    have all : ∀ c ∈ ds ++ List.replicate (p - ds.length) '0' ++ ['0'], c.isDigit = true :=
      (whole.append zero.all).all
    rw [List.take_of_length_le (Nat.not_lt.mp inside), List.drop_of_length_le (Nat.not_lt.mp inside),
      List.isEmpty_nil, if_pos rfl]
    refine ⟨_, .of_point negative whole (fun h => ?_) zero ?_⟩
    · rw [List.head?_append_of_ne_nil _ digits.nonempty] at h
      exact absurd h lead
    · have length : (ds ++ List.replicate (p - ds.length) '0' ++ ['0']).length ≤ 17 := by
        simp only [List.length_append, List.length_replicate, List.length_singleton]
        omega
      calc ofDigits ((ds ++ List.replicate (p - ds.length) '0' ++ ['0']).map digitValue)
          < 10 ^ (ds ++ List.replicate (p - ds.length) '0' ++ ['0']).length := ofDigits_map_lt all
        _ ≤ 10 ^ 17 := Nat.pow_le_pow_right (by decide) length
        _ < 2 ^ 64 := by decide

theorem SpellsDouble.scientific (negative : Bool) {exponent : Int} (pos : 0 < n) (hn : n ≤ 10 ^ 17)
    (found : ∃ y, double? negative n (exponent + 1 - (Nat.toDigits 10 n).length) = some y) :
    ∃ s : Spelling,
      s.SpellsDouble negative (Binary64.scientific (Nat.toDigits 10 n) exponent) := by
  have all := (Digits.toDigits n).all
  have value := ofDigits_toDigits n
  have lead := toDigits_head_ne pos
  obtain ⟨c, rest, eq⟩ := List.exists_cons_of_ne_nil (Digits.toDigits n).nonempty
  rw [eq] at all value lead found ⊢
  have proper (fraction : Option (List Char)) (hf : ∀ digits ∈ fraction, Digits digits) :
      Proper ⟨negative, [c], fraction,
        some (decide (exponent < 0), Nat.toDigits 10 exponent.natAbs)⟩ := by
    refine ⟨⟨by simp, ?_⟩, fun h => absurd h lead, hf, ?_⟩
    · simpa using all c List.mem_cons_self
    · intro e h
      exact Option.some.inj h ▸ .toDigits exponent.natAbs
  cases rest with
  | nil =>
    refine ⟨⟨negative, [c], none, some (decide (exponent < 0), Nat.toDigits 10 exponent.natAbs)⟩, rfl,
      proper none (by simp), by simp [Binary64.scientific, fractionText, exponentText], ?_⟩
    exact literal_value? (.inr rfl) rfl value (show n < 2 ^ 64 by omega)
      (congrArg _ (givenExponent_eq _ rfl)) (by simpa using found)
  | cons d rest =>
    have fraction : Digits (d :: rest) := ⟨by simp, fun c hc => all c (List.mem_cons_of_mem _ hc)⟩
    refine ⟨⟨negative, [c], some (d :: rest),
      some (decide (exponent < 0), Nat.toDigits 10 exponent.natAbs)⟩, rfl,
      proper _ fun digits h => Option.some.inj h ▸ fraction,
      by simp [Binary64.scientific, fractionText, exponentText], ?_⟩
    have power : -((d :: rest).length : Int) + exponent =
        exponent + 1 - ((c :: d :: rest).length : Nat) := by
      simp only [List.length_cons]
      omega
    exact literal_value? (.inl rfl) rfl value (show n < 2 ^ 64 by omega)
      (congrArg _ (givenExponent_eq _ rfl)) (power ▸ found)

theorem exists_spellsDouble (hx : x.Finite) :
    ∃ s : Spelling, s.text = x.text.toList ∧ s.Proper ∧ ∃ y, s.literal.value? = some (.double y) := by
  have of {magnitude : List Char}
      (h : ∃ s : Spelling, s.SpellsDouble x.negative magnitude)
      (eq : x.text = String.ofList (if x.negative then '-' :: magnitude else magnitude)) :
      ∃ s : Spelling, s.text = x.text.toList ∧ s.Proper ∧
        ∃ y, s.literal.value? = some (.double y) := by
    obtain ⟨s, hs⟩ := h
    refine ⟨s, ?_, hs.proper, hs.value⟩
    rw [eq, text, hs.text, hs.sign, String.toList_ofList]
    cases x.negative <;> rfl
  by_cases zero : x.isZero = true
  · exact of (SpellsDouble.zero x.negative) (by rw [Binary64.text, if_pos zero])
  · have pos : 0 < x.mantissa := Nat.pos_of_ne_zero (by simpa [Binary64.isZero] using zero)
    have fits := Binary64.Fits.shortest hx.mantissa pos
    have found := double?_shortest x.negative hx pos
    refine @of _ ?_ (by rw [Binary64.text, if_neg zero])
    generalize x.shortest = d at fits found
    obtain ⟨digits, exponent⟩ := d
    dsimp only
    generalize hp : exponent + ((Nat.toDigits 10 digits).length : Int) = point
    split
    next near =>
      obtain ⟨-, near⟩ : -5 < point ∧ point ≤ 16 := by simpa using near
      rcases Int.lt_or_le 0 point with high | low
      · exact SpellsDouble.from_one x.negative fits.pos fits.small high near
      · exact SpellsDouble.below_one x.negative fits.small low
    next =>
      refine SpellsDouble.scientific x.negative fits.pos fits.small ?_
      rwa [show point - 1 + 1 - ((Nat.toDigits 10 digits).length : Int) = exponent by omega]

end Spelling

namespace JsonNumber

open JsonReader

variable {n m : JsonNumber}

/-- The number that the text of a number is read as. -/
def reread (n : JsonNumber) : JsonNumber :=
  match number? n.text.toList with
  | some (l, _) => l.value?.getD n
  | none => n

theorem reread_eq {s : Spelling} (h : s.Proper) (text : s.text = n.text.toList)
    (value : s.literal.value? = some m) : n.reread = m := by
  have read := Spelling.number?_text h .nil
  rw [List.append_nil, text] at read
  simp [reread, read, value]

theorem exists_spelling_integer {k : Int} (h : (integer k).Lawful) :
    ∃ s : Spelling, s.text = (integer k).text.toList ∧ s.Proper ∧
      s.literal.value? = some (integer k) := by
  obtain ⟨low, high⟩ := h
  refine ⟨⟨k < 0, Nat.toDigits 10 k.natAbs, none, none⟩, ?_,
    ⟨.toDigits _, Spelling.toDigits_lead, by simp, by simp⟩, ?_⟩
  · rw [JsonNumber.text, Int.toString_eq_repr, Int.repr_eq_if]
    by_cases negative : k < 0
    · rw [if_neg (by omega), show (-k).toNat = k.natAbs by omega]
      simp [Spelling.text, Spelling.fractionText, Spelling.exponentText, negative, Nat.repr]
    · rw [if_pos (by omega), show k.toNat = k.natAbs by omega]
      simp [Spelling.text, Spelling.fractionText, Spelling.exponentText, negative, Nat.repr]
  · have value := Spelling.ofDigits_toDigits k.natAbs
    by_cases negative : k < 0
    · rw [Spelling.literal, NumberLiteral.value?_whole rfl rfl, value]
      · simp only [negative, decide_true, if_true]
        congr 2
        omega
      · simp only [negative, decide_true, if_true, value]
        omega
    · rw [Spelling.literal, NumberLiteral.value?_whole rfl rfl, value]
      · simp only [negative, decide_false, Bool.false_eq_true, if_false]
        congr 2
        omega
      · simp only [negative, decide_false, Bool.false_eq_true, if_false, value]
        omega

theorem reread_integer {k : Int} (h : (integer k).Lawful) : (integer k).reread = integer k := by
  obtain ⟨s, text, proper, value⟩ := exists_spelling_integer h
  exact reread_eq proper text value

theorem reread_double {x : Binary64} (h : x.Finite) : ∃ y, (double x).reread = double y := by
  obtain ⟨s, text, proper, y, value⟩ := Spelling.exists_spellsDouble h
  exact ⟨y, reread_eq (n := double x) proper text value⟩

theorem exists_spelling (h : n.Lawful) :
    ∃ s : Spelling, s.text = n.text.toList ∧ s.Proper ∧ s.literal.value? = some n.reread := by
  cases n with
  | integer k =>
    rw [reread_integer h]
    exact exists_spelling_integer h
  | double x =>
    obtain ⟨s, text, proper, y, value⟩ := Spelling.exists_spellsDouble h
    rw [reread_eq (n := double x) proper text value]
    exact ⟨s, text, proper, value⟩

end JsonNumber

end CodeSurvey
