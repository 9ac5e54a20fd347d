import Keyring.Json.Skip
import Keyring.Proofs.Json.Layout
import Keyring.Proofs.Json.Tokens

/-!
# Reading numbers, however they are written

A numeral is read as the number that its digits, its point and its exponent make up, and refused exactly
if that is out of range (`gives_number`). Each loop over digits is told by the digits that it keeps
(`digitsOnto_digitBytes`). A numeral ends where the next byte cannot go on it (`StopsNumber`). Skipping a
numeral does not look at its size (`skipNumber_bytes`).
-/

namespace Keyring.Json

/-- No digits are left that were not there before. -/
theorem keepDigits_length (limit value : Nat) (digits : List Digit) :
    (keepDigits limit value digits).2.length ≤ digits.length := by
  fun_induction keepDigits limit value digits with
  | case1 => exact Nat.le_refl _
  | case2 => exact Nat.le_refl _
  | case3 value d digits _ ih => exact Nat.le_succ_of_le ih

/-- Digits only make a number larger. -/
theorem le_foldl_digits (digits : List Digit) (value : Nat) :
    value ≤ digits.foldl (fun value d => 10 * value + d.val) value := by
  induction digits generalizing value with
  | nil => exact Nat.le_refl _
  | cons d digits ih =>
    refine Nat.le_trans ?_ (ih (10 * value + d.val))
    omega

/-- All digits are kept of a number that stays at most `limit`. -/
theorem keepDigits_eq {limit value : Nat} {digits : List Digit}
    (h : digits.foldl (fun value d => 10 * value + d.val) value ≤ limit) :
    keepDigits limit value digits = (digits.foldl (fun value d => 10 * value + d.val) value, []) := by
  induction digits generalizing value with
  | nil => rfl
  | cons d digits ih =>
    have hfirst := Nat.le_trans (le_foldl_digits digits (10 * value + d.val)) h
    rw [keepDigits, if_neg (Nat.not_lt.2 hfirst)]
    exact ih h

/-- A natural number in plain decimal is that number, if there is room for it. -/
theorem Numeral.number?_of_natural? {n : Numeral} {m : Nat} (h : n.natural? = some m)
    (hm : m ≤ Reader.maxInteger) : n.number? = some (.natural m) := by
  rw [natural?] at h
  split at h
  · next hplain =>
    obtain ⟨hsign, hfraction, hexponent⟩ := hplain
    cases h
    have hfold : n.more.foldl (fun value d => 10 * value + d.val) n.first.val ≤ 2 ^ 64 - 1 := by
      simpa [Reader.maxInteger] using hm
    have hkeep := keepDigits_eq hfold
    simp [number?, hfraction, hexponent, hsign, hkeep, Reader.integer]
  · cases h

@[simp] theorem digitBytes_nil : digitBytes [] = [] := rfl

@[simp] theorem digitBytes_cons (d : Digit) (digits : List Digit) :
    digitBytes (d :: digits) = Digit.byte d :: digitBytes digits := rfl

@[simp] theorem length_digitBytes (digits : List Digit) : (digitBytes digits).length = digits.length :=
  List.length_map ..

namespace Reader

/-! ## Digits -/

/-- What is written for a digit is one. -/
@[simp] theorem isDigit_byte (d : Digit) : isDigit (Digit.byte d) = true := by
  revert d
  decide

/-- And the digit is told by it. -/
@[simp] theorem toNat_byte (d : Digit) : (Digit.byte d).toNat - 0x30 = d.val := by
  revert d
  decide

/-- Only a zero is written as one. -/
theorem byte_ne_zero {d : Digit} (h : d ≠ 0) : Digit.byte d ≠ 0x30 := by
  intro hbyte
  have hvalue := toNat_byte d
  rw [hbyte] at hvalue
  exact h (Fin.ext hvalue.symm)

/-- The byte at the front, if there is one, is no digit. -/
def StopsDigits (rest : Bytes) : Prop :=
  ∀ b, rest.head? = some b → isDigit b = false

/-- A number ends only where digits end. -/
theorem StopsNumber.stopsDigits {rest : Bytes} (h : StopsNumber rest) : StopsDigits rest :=
  fun b hb => (h b hb).1

/-- Digits end before a byte that is none. -/
theorem stopsDigits_cons {b : UInt8} (h : isDigit b = false) (rest : Bytes) :
    StopsDigits (b :: rest) := by
  intro c hc
  cases hc
  exact h

section
variable {rest : Bytes} (hrest : StopsDigits rest)
include hrest

/-- The digits that are kept, how many there are, and those that are left. -/
theorem digitsOnto_digitBytes (limit value count : Nat) (digits : List Digit) :
    digitsOnto limit value count (digitBytes digits ++ rest) =
      (⟨(keepDigits limit value digits).1,
          count + (digits.length - (keepDigits limit value digits).2.length),
          !(keepDigits limit value digits).2.isEmpty⟩,
        digitBytes (keepDigits limit value digits).2 ++ rest) := by
  induction digits generalizing value count with
  | nil =>
    cases rest with
    | nil => rfl
    | cons b rest =>
      rw [digitBytes_nil, List.nil_append, digitsOnto]
      simp [hrest b rfl, keepDigits]
  | cons d digits ih =>
    rw [digitBytes_cons, List.cons_append, digitsOnto, keepDigits]
    simp only [isDigit_byte, toNat_byte, Bool.not_true, Bool.false_eq_true, if_false]
    by_cases hlimit : 10 * value + d.val > limit
    · simp [hlimit]
    · have hlength := keepDigits_length limit (10 * value + d.val) digits
      rw [if_neg hlimit, if_neg hlimit]
      refine (ih (10 * value + d.val) (count + 1)).trans ?_
      simp only [List.length_cons, Prod.mk.injEq, Digits.mk.injEq, true_and, and_true]
      omega

/-- All digits are taken, and what stands behind them is left. -/
theorem takeWhile_digitBytes (digits : List Digit) :
    (digitBytes digits ++ rest).takeWhile isDigit = digitBytes digits ∧
      (digitBytes digits ++ rest).dropWhile isDigit = rest := by
  induction digits with
  | nil =>
    cases rest with
    | nil => exact ⟨rfl, rfl⟩
    | cons b rest => simp [hrest b rfl]
  | cons d digits ih => simp [ih]

/-- Skipping passes over all digits. -/
theorem skipDigits_digitBytes (digits : List Digit) :
    skipDigits (digitBytes digits ++ rest) = .ok digits.length rest := by
  obtain ⟨htake, hdrop⟩ := takeWhile_digitBytes hrest digits
  rw [skipDigits, htake, hdrop, length_digitBytes]

/-- Digits are read up to the limit, and what is over is counted and left. -/
theorem digits_digitBytes (limit value : Nat) (ds : List Digit) :
    digits limit value (digitBytes ds ++ rest) =
      .ok ⟨(keepDigits limit value ds).1, ds.length - (keepDigits limit value ds).2.length,
        !(keepDigits limit value ds).2.isEmpty⟩ (digitBytes (keepDigits limit value ds).2 ++ rest) := by
  rw [digits, digitsOnto_digitBytes hrest]
  simp only [Nat.zero_add]

end

/-! ## What goes on a number -/

section
variable {α : Type} {f : Option UInt8 → Reader α} {g : Reader α}

/-- The letter of an exponent is seen. -/
theorem peek_exponent (hsmall : f (some 0x65) = g) (hlarge : f (some 0x45) = g) (e : Exponent)
    (rest : Bytes) : (peek >>= f) (e.bytes ++ rest) = g (e.bytes ++ rest) := by
  rw [Exponent.bytes, List.cons_append, List.cons_append, bind_ok (peek_cons ..)]
  cases e.isCapital with
  | true => exact congrFun hlarge _
  | false => exact congrFun hsmall _

/-- What goes on no number is seen. -/
theorem peek_stop {rest : Bytes} (hrest : StopsNumber rest) (hnone : f none = g)
    (hsome : ∀ b, b ≠ 0x2e → b ≠ 0x65 → b ≠ 0x45 → f (some b) = g) :
    (peek >>= f) rest = g rest := by
  cases rest with
  | nil => exact congrFun hnone []
  | cons b rest =>
    have ⟨_, hpoint, hsmall, hlarge⟩ := hrest b rfl
    rw [bind_ok (peek_cons b rest), hsome b hpoint hsmall hlarge]

end

/-! ## Exponents -/

/-- A number with a fraction or an exponent is read as its nearest value, if there is one. -/
theorem gives_real (isNegative : Bool) (value : Nat) (exponent : Int) (rest : Bytes) :
    Gives (real isNegative value exponent rest) (Numeral.real? isNegative value exponent) rest := by
  rw [real, Numeral.real?]
  cases Binary64.ofDecimal value exponent with
  | none => exact gives_error
  | some magnitude => exact gives_ok

/-- What follows the sign of an exponent. -/
def exponentSize (isNegative : Bool) (value : Nat) (exponent : Int) (isDown : Bool) : Reader Number := do
  match ← next with
  | none => fail .endInValue
  | some b =>
    if !isDigit b then fail .badNumber
    else
      let size ← digits maxExponent (b.toNat - 0x30)
      if size.full then
        skip
        if value ≠ 0 ∧ !isDown then fail .numberOutOfRange
        else
          let _ ← skipDigits
          pure (.real isNegative .zero)
      else if isDown then real isNegative value (exponent - size.value)
      else real isNegative value (exponent + size.value)

/-- The sign is read, if there is one. -/
theorem exponentPart_sign (isNegative : Bool) (value : Nat) (exponent : Int) (letter : UInt8)
    (isDown? : Option Bool) (d : Digit) (rest : Bytes) :
    exponentPart isNegative value exponent
        (letter :: (Exponent.signBytes isDown? ++ Digit.byte d :: rest)) =
      exponentSize isNegative value exponent (isDown? == some true) (Digit.byte d :: rest) := by
  have hplus : Digit.byte d ≠ 0x2b := ne_of_isDigit (isDigit_byte d) rfl
  have hminus : Digit.byte d ≠ 0x2d := ne_of_isDigit (isDigit_byte d) rfl
  rw [exponentPart, bind_ok (skip_cons ..)]
  match isDown? with
  | none =>
    rw [Exponent.signBytes, List.nil_append, bind_ok (peek_cons ..)]
    simp only [Option.some.injEq, hplus, hminus, decide_false, Bool.or_self, Bool.false_eq_true, if_false]
    rfl
  | some false => rfl
  | some true => rfl

/-- An exponent that is too long is taken for one that is out of range. -/
theorem scaled?_some (isNegative : Bool) (value : Nat) (scale : Int) (e : Exponent) :
    Numeral.scaled? isNegative value scale (some e) =
      let kept := keepDigits maxExponent e.first e.more
      if kept.2 ≠ [] then
        if value ≠ 0 ∧ e.isDown? ≠ some true then none else some (.real isNegative .zero)
      else
        Numeral.real? isNegative value
          (if e.isDown? = some true then scale - kept.1 else scale + kept.1) := rfl

/-- An exponent without its mark and sign is read as what it scales the number by. -/
theorem gives_exponentSize {rest : Bytes} (hrest : StopsDigits rest) (isNegative : Bool) (value : Nat)
    (exponent : Int) (e : Exponent) :
    Gives (exponentSize isNegative value exponent (e.isDown? == some true)
        (digitBytes (e.first :: e.more) ++ rest))
      (Numeral.scaled? isNegative value exponent (some e)) rest := by
  have hdigits := digits_digitBytes hrest maxExponent e.first e.more
  rw [digitBytes_cons, List.cons_append, exponentSize, bind_ok (next_cons ..), scaled?_some]
  simp only [isDigit_byte, toNat_byte, Bool.not_true, Bool.false_eq_true, if_false]
  rw [bind_ok hdigits]
  generalize keepDigits maxExponent e.first.val e.more = kept
  obtain ⟨size, left⟩ := kept
  cases left with
  | nil =>
    by_cases hdown : e.isDown? = some true
    · simp only [hdown]
      exact gives_real ..
    · simp only [beq_eq_false_iff_ne.2 hdown, if_neg hdown]
      exact gives_real ..
  | cons d left =>
    simp only [List.isEmpty_cons, Bool.not_false, if_true, ne_eq, reduceCtorEq, not_false_eq_true,
      digitBytes_cons, List.cons_append, bind_ok (skip_cons ..), Bool.not_eq_true', beq_eq_false_iff_ne]
    by_cases hrange : value ≠ 0 ∧ e.isDown? ≠ some true
    · rw [if_pos hrange, if_pos hrange]
      exact gives_error
    · rw [if_neg hrange, if_neg hrange, bind_ok (skipDigits_digitBytes hrest left)]
      exact gives_ok

/-- An exponent is read, if there is one. -/
theorem gives_exponentPart {rest : Bytes} (hrest : StopsDigits rest) (isNegative : Bool) (value : Nat)
    (exponent : Int) (e : Exponent) :
    Gives (exponentPart isNegative value exponent (e.bytes ++ rest))
      (Numeral.scaled? isNegative value exponent (some e)) rest := by
  have h := gives_exponentSize hrest isNegative value exponent e
  rw [digitBytes_cons, List.cons_append] at h
  rw [Exponent.bytes, digitBytes_cons, List.cons_append, List.cons_append, List.append_assoc,
    List.cons_append, exponentPart_sign]
  exact h

/-- An exponent is read, if there is one. -/
theorem gives_exponentOption {rest : Bytes} (hrest : StopsNumber rest) (isNegative : Bool) (value : Nat)
    (exponent : Int) (e : Option Exponent) :
    Gives (exponentOption isNegative value exponent (Numeral.exponentBytes e ++ rest))
      (Numeral.scaled? isNegative value exponent e) rest := by
  rw [exponentOption]
  cases e with
  | none =>
    rw [Numeral.exponentBytes, List.nil_append,
      peek_stop hrest rfl fun b _ hsmall hlarge => by simp [hsmall, hlarge]]
    exact gives_real ..
  | some e =>
    rw [Numeral.exponentBytes, peek_exponent rfl rfl]
    exact gives_exponentPart hrest.stopsDigits isNegative value exponent e

/-! ## Fractions -/

/-- Digits end before an exponent, as they do where there is none. -/
theorem stopsDigits_exponent {rest : Bytes} (hrest : StopsDigits rest) (e : Option Exponent) :
    StopsDigits (Numeral.exponentBytes e ++ rest) := by
  cases e with
  | none => exact hrest
  | some e =>
    rw [Numeral.exponentBytes, Exponent.bytes, List.cons_append, List.cons_append]
    cases e.isCapital <;> exact stopsDigits_cons (by decide) _

/-- The digits after a point are read, and then an exponent, if there is one. -/
theorem gives_fractionPart {rest : Bytes} (hrest : StopsNumber rest) (isNegative : Bool) (value : Nat)
    (exponent : Int) (d : Digit) (ds : List Digit) (e : Option Exponent) :
    Gives (fractionPart isNegative value exponent
        (0x2e :: (digitBytes (d :: ds) ++ (Numeral.exponentBytes e ++ rest))))
      (Numeral.scaled? isNegative (keepDigits maxInteger value (d :: ds)).1
        (exponent - (((d :: ds).length : Int) - (keepDigits maxInteger value (d :: ds)).2.length)) e)
      rest := by
  have hstop := stopsDigits_exponent hrest.stopsDigits e
  have hlength := keepDigits_length maxInteger value (d :: ds)
  rw [fractionPart, bind_ok (skip_cons ..), bind_ok (digits_digitBytes hstop ..)]
  have hfirst (h : (keepDigits maxInteger value (d :: ds)).2 = []) :
      (d :: ds).length - (keepDigits maxInteger value (d :: ds)).2.length ≠ 0 := by
    rw [h]
    exact Nat.succ_ne_zero _
  rw [← Int.ofNat_sub hlength]
  generalize keepDigits maxInteger value (d :: ds) = kept at hfirst ⊢
  obtain ⟨value', left⟩ := kept
  cases left with
  | nil =>
    simp only [List.isEmpty_nil, Bool.not_true, Bool.false_eq_true, if_false, if_neg (hfirst rfl)]
    exact gives_exponentOption hrest ..
  | cons c left =>
    simp only [List.isEmpty_cons, Bool.not_false, if_true, bind_ok (skipDigits_digitBytes hstop _)]
    exact gives_exponentOption hrest ..

/-! ## Numbers -/

/-- What the digits before the point make up, with those after it and the exponent. -/
def placed? (isNegative : Bool) (kept : Nat × List Digit) (e : Option Exponent) :
    Option (Digit × List Digit) → Option Number
  | none =>
    if e = none ∧ kept.2 = [] then some (integer isNegative kept.1)
    else Numeral.scaled? isNegative kept.1 kept.2.length e
  | some (d, ds) =>
    Numeral.scaled? isNegative (keepDigits maxInteger kept.1 (d :: ds)).1
      (kept.2.length - (((d :: ds).length : Int) -
        (keepDigits maxInteger kept.1 (d :: ds)).2.length)) e

/-- What a number means, by its digits as far as they fit a word. -/
theorem number?_eq (n : Numeral) :
    n.number? = placed? n.isNegative (keepDigits maxInteger n.first n.more) n.exponent n.fraction := by
  rw [Numeral.number?, placed?.eq_def]
  cases n.fraction <;> rfl

/-- What follows the digits before the point: a fraction, an exponent, or the end. -/
def afterWhole (isNegative : Bool) (value : Nat) (exponent : Int) (finish : Reader Number) :
    Reader Number := do
  match ← peek with
  | some 0x2e => fractionPart isNegative value exponent
  | some 0x65 | some 0x45 => exponentPart isNegative value exponent
  | _ => finish

/-- A whole number with digits over goes on with its fraction and exponent. -/
theorem afterLongInteger_eq (isNegative : Bool) (value : Nat) (exponent : Int) :
    numberRest.afterLongInteger isNegative value exponent =
      afterWhole isNegative value exponent (real isNegative value exponent) := rfl

section
variable {rest : Bytes} (hrest : StopsNumber rest) (isNegative : Bool)
include hrest

/-- Whatever follows the digits before the point, it is no digit. -/
theorem stopsDigits_fraction (fraction : Option (Digit × List Digit)) (e : Option Exponent) :
    StopsDigits (Numeral.fractionBytes fraction ++ (Numeral.exponentBytes e ++ rest)) := by
  cases fraction with
  | none => exact stopsDigits_exponent hrest.stopsDigits e
  | some f => exact stopsDigits_cons rfl _

/-- A fraction and an exponent are read, as far as there are any. -/
theorem gives_afterWhole (kept : Nat × List Digit) (finish : Reader Number)
    (hfinish : Gives (finish rest) (placed? isNegative kept none none) rest)
    (fraction : Option (Digit × List Digit)) (e : Option Exponent) :
    Gives (afterWhole isNegative kept.1 kept.2.length finish
        (Numeral.fractionBytes fraction ++ (Numeral.exponentBytes e ++ rest)))
      (placed? isNegative kept e fraction) rest := by
  rw [afterWhole]
  match fraction, e with
  | some (d, ds), e =>
    rw [Numeral.fractionBytes, List.cons_append, bind_ok (peek_cons ..)]
    exact gives_fractionPart hrest ..
  | none, some e =>
    rw [Numeral.fractionBytes, List.nil_append, Numeral.exponentBytes, peek_exponent rfl rfl]
    exact gives_exponentPart hrest.stopsDigits isNegative kept.1 kept.2.length e
  | none, none =>
    rw [Numeral.fractionBytes, List.nil_append, Numeral.exponentBytes, List.nil_append,
      peek_stop hrest rfl fun b hpoint hsmall hlarge => by simp [hpoint, hsmall, hlarge]]
    exact hfinish

/-- A number is read whose sign has been read. -/
theorem gives_numberRest (n : Numeral) :
    Gives (numberRest isNegative (digitBytes (n.first :: n.more) ++
        (Numeral.fractionBytes n.fraction ++ (Numeral.exponentBytes n.exponent ++ rest))))
      (placed? isNegative (keepDigits maxInteger n.first n.more) n.exponent n.fraction) rest := by
  have hstop := stopsDigits_fraction hrest n.fraction n.exponent
  have hinteger (value : Nat) :=
    gives_afterWhole hrest isNegative (value, []) (pure (integer isNegative value)) gives_ok n.fraction
      n.exponent
  rw [digitBytes_cons, List.cons_append, numberRest, bind_ok (next_cons ..)]
  simp only [isDigit_byte, toNat_byte, Bool.not_true, Bool.false_eq_true, if_false]
  by_cases hzero : n.first = 0
  · have hread := hinteger 0
    rw [hzero, n.zero_alone hzero, if_pos (show Digit.byte 0 = 0x30 from rfl), digitBytes_nil,
      List.nil_append]
    generalize Numeral.fractionBytes n.fraction ++ (Numeral.exponentBytes n.exponent ++ rest) = tail
      at hstop hread ⊢
    cases tail with
    | nil => exact hread
    | cons b tail =>
      rw [bind_ok (peek_cons ..)]
      simp only [hstop b rfl, Bool.false_eq_true, if_false]
      exact hread
  · rw [if_neg (byte_ne_zero hzero), bind_ok (digits_digitBytes hstop ..)]
    generalize keepDigits maxInteger n.first.val n.more = kept
    obtain ⟨value, left⟩ := kept
    cases left with
    | nil => exact hinteger value
    | cons c left =>
      simp only [List.isEmpty_cons, Bool.not_false, if_true, bind_ok (skipDigits_digitBytes hstop _),
        afterLongInteger_eq]
      exact gives_afterWhole hrest isNegative (value, c :: left) _ (gives_real ..) n.fraction n.exponent

end

end Reader

namespace Numeral

/-- The byte that a numeral starts with. -/
def head (n : Numeral) : UInt8 :=
  if n.isNegative then 0x2d else Digit.byte n.first

/-- A number is its first byte and what stands behind it. -/
theorem exists_bytes_eq (n : Numeral) : ∃ more, n.bytes = n.head :: more := by
  rw [bytes, head]
  cases n.isNegative with
  | true => exact ⟨_, rfl⟩
  | false => exact ⟨_, rfl⟩

/-- A number starts with a minus sign or a digit. -/
theorem head_cases (n : Numeral) : n.head = 0x2d ∨ Reader.isDigit n.head = true := by
  rw [head]
  cases n.isNegative with
  | true => exact .inl rfl
  | false => exact .inr (Reader.isDigit_byte n.first)

end Numeral

namespace Reader

/-- A number is read from its first byte on. -/
theorem gives_number (n : Numeral) {rest : Bytes} (hrest : StopsNumber rest) :
    Gives (number n.head (n.bytes ++ rest)) n.number? rest := by
  have h := gives_numberRest hrest n.isNegative n
  rw [number?_eq, number, Numeral.head, Numeral.bytes]
  simp only [List.append_assoc]
  cases hsign : n.isNegative with
  | true =>
    rw [hsign] at h
    exact h
  | false =>
    have hminus : Digit.byte n.first ≠ 0x2d := ne_of_isDigit (isDigit_byte n.first) rfl
    rw [hsign] at h
    simpa [hminus] using h

/-! ## Skipping a number -/

/-- An exponent is skipped. -/
theorem skipExponent_bytes {rest : Bytes} (hrest : StopsDigits rest) (e : Exponent) :
    skipExponent (e.bytes ++ rest) = .ok () rest := by
  have hplus : Digit.byte e.first ≠ 0x2b := ne_of_isDigit (isDigit_byte e.first) rfl
  have hminus : Digit.byte e.first ≠ 0x2d := ne_of_isDigit (isDigit_byte e.first) rfl
  have hmore := skipDigits_digitBytes hrest e.more
  rw [Exponent.bytes, digitBytes_cons, List.cons_append, List.cons_append, List.append_assoc,
    List.cons_append, skipExponent, bind_ok (skip_cons ..)]
  match e.isDown? with
  | none =>
    rw [Exponent.signBytes, List.nil_append, bind_ok (peek_cons ..)]
    simp [hplus, hminus, bind_ok (next_cons ..), map_ok hmore]
  | some isDown =>
    have hsign : Exponent.signBytes (some isDown) = [if isDown then 0x2d else 0x2b] := by
      cases isDown <;> rfl
    rw [hsign, List.singleton_append, bind_ok (peek_cons ..)]
    cases isDown <;> simp [bind_ok (skip_cons ..), bind_ok (next_cons ..), map_ok hmore]

/-- Reads past an exponent, if there is one. -/
def skipExponentOption : Reader Unit := do
  match ← peek with
  | some 0x65 | some 0x45 => skipExponent
  | _ => pure ()

section
variable {rest : Bytes} (hrest : StopsNumber rest)
include hrest

/-- Skipping passes over an exponent, if there is one. -/
theorem skipExponentOption_bytes (e : Option Exponent) :
    skipExponentOption (Numeral.exponentBytes e ++ rest) = .ok () rest := by
  rw [skipExponentOption]
  cases e with
  | none =>
    rw [Numeral.exponentBytes, List.nil_append,
      peek_stop hrest rfl fun b _ hsmall hlarge => by simp [hsmall, hlarge]]
    rfl
  | some e =>
    rw [Numeral.exponentBytes, peek_exponent rfl rfl]
    exact skipExponent_bytes hrest.stopsDigits e

/-- What follows the digits before the point is skipped. -/
theorem skipFraction_bytes (fraction : Option (Digit × List Digit)) (e : Option Exponent) :
    skipFraction (Numeral.fractionBytes fraction ++ (Numeral.exponentBytes e ++ rest)) = .ok () rest := by
  rw [skipFraction]
  match fraction, e with
  | some (d, ds), e =>
    have hdigits := skipDigits_digitBytes (stopsDigits_exponent hrest.stopsDigits e) (d :: ds)
    rw [Numeral.fractionBytes, List.cons_append, bind_ok (peek_cons ..)]
    change (skip >>= _) _ = _
    rw [bind_ok (skip_cons ..), bind_ok hdigits, if_neg (by simp)]
    exact skipExponentOption_bytes hrest e
  | none, some e =>
    rw [Numeral.fractionBytes, List.nil_append, Numeral.exponentBytes, peek_exponent rfl rfl]
    exact skipExponent_bytes hrest.stopsDigits e
  | none, none =>
    rw [Numeral.fractionBytes, List.nil_append, Numeral.exponentBytes, List.nil_append,
      peek_stop hrest rfl fun b hpoint hsmall hlarge => by simp [hpoint, hsmall, hlarge]]
    rfl

/-- A number is skipped whose sign has been read. -/
theorem skipNumber_bytes (n : Numeral) :
    skipNumber (digitBytes (n.first :: n.more) ++
      (Numeral.fractionBytes n.fraction ++ (Numeral.exponentBytes n.exponent ++ rest))) = .ok () rest := by
  have hstop := stopsDigits_fraction hrest n.fraction n.exponent
  have hread := skipFraction_bytes hrest n.fraction n.exponent
  rw [digitBytes_cons, List.cons_append, skipNumber, bind_ok (next_cons ..)]
  simp only [isDigit_byte, Bool.not_true, Bool.false_eq_true, if_false]
  generalize Numeral.fractionBytes n.fraction ++ (Numeral.exponentBytes n.exponent ++ rest) = tail
    at hstop hread ⊢
  by_cases hzero : n.first = 0
  · rw [hzero, n.zero_alone hzero, if_pos (show Digit.byte 0 = 0x30 from rfl), digitBytes_nil,
      List.nil_append]
    cases tail with
    | nil => exact hread
    | cons b tail =>
      rw [bind_ok (peek_cons ..)]
      simp only [hstop b rfl, Bool.false_eq_true, if_false]
      exact hread
  · rw [if_neg (byte_ne_zero hzero), bind_ok (skipDigits_digitBytes hstop _)]
    exact hread

end

end Reader

end Keyring.Json
