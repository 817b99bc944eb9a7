/-!
# Base64

Three bytes are written as four characters of the standard alphabet; a last group of one or two
bytes is filled up with `=` signs. Reading is strict: every group is full, the fill is where it has
to be and nowhere else, and the bits that a fill leaves over are zero.

Results:
* **`decode_eq_some_iff`**: a text is read as some bytes exactly if it is what they are written as,
  so no bytes have a second spelling.
-/

namespace SlotBroker.Codec.Base64

/-- The characters for the values 0 to 63. -/
def alphabet : List Char :=
  "ABCDEFGHIJKLMNOPQRSTUVWXYZabcdefghijklmnopqrstuvwxyz0123456789+/".toList

/-- The character for a value below 64. -/
def digit (n : Nat) : Char := alphabet.getD n '='

/-- The value of a character of the alphabet. -/
def value? (c : Char) : Option Nat := alphabet.idxOf? c

/-- The bytes in groups of three, each written as four characters. -/
def encode : List UInt8 → List Char
  | [] => []
  | [a] => [digit (a.toNat / 4), digit (a.toNat % 4 * 16), '=', '=']
  | [a, b] =>
    [digit (a.toNat / 4), digit (a.toNat % 4 * 16 + b.toNat / 16), digit (b.toNat % 16 * 4), '=']
  | a :: b :: c :: rest =>
    digit (a.toNat / 4) :: digit (a.toNat % 4 * 16 + b.toNat / 16) ::
      digit (b.toNat % 16 * 4 + c.toNat / 64) :: digit (c.toNat % 64) :: encode rest

/-- The two values of a group with two fill signs. -/
def decodeOne (w x : Nat) : Option (List UInt8) :=
  if x % 16 = 0 then some [UInt8.ofNat (w * 4 + x / 16)] else none

/-- The three values of a group with one fill sign. -/
def decodeTwo (w x y : Nat) : Option (List UInt8) :=
  if y % 4 = 0 then some [UInt8.ofNat (w * 4 + x / 16), UInt8.ofNat (x % 16 * 16 + y / 4)] else none

/-- The four values of a full group. -/
def decodeThree (w x y z : Nat) : List UInt8 :=
  [UInt8.ofNat (w * 4 + x / 16), UInt8.ofNat (x % 16 * 16 + y / 4), UInt8.ofNat (y % 4 * 64 + z)]

/-- The bytes that a text writes, none where it writes none. -/
def decode : List Char → Option (List UInt8)
  | [] => some []
  | [a, b, '=', '='] => do decodeOne (← value? a) (← value? b)
  | [a, b, c, '='] => do decodeTwo (← value? a) (← value? b) (← value? c)
  | a :: b :: c :: d :: rest => do
    let group := decodeThree (← value? a) (← value? b) (← value? c) (← value? d)
    return group ++ (← decode rest)
  | _ => none

/-! ## Single characters -/

theorem value?_digit {n : Nat} (h : n < 64) : value? (digit n) = some n := by
  revert n
  decide

theorem eq_digit_of_value? {c : Char} {n : Nat} (h : value? c = some n) : c = digit n ∧ n < 64 := by
  obtain ⟨hn, hc, -⟩ := List.findIdx?_eq_some_iff_getElem.1 h
  refine ⟨?_, hn⟩
  rw [digit, List.getD_eq_getElem?_getD, List.getElem?_eq_getElem hn]
  exact (eq_of_beq hc).symm

theorem value?_fill : value? '=' = none := by decide

theorem digit_ne_fill {n : Nat} (h : n < 64) : digit n ≠ '=' := by
  intro e
  have := value?_digit h
  rw [e, value?_fill] at this
  cases this

/-! ## Whole texts -/

/-- Two characters before a fill of two. -/
theorem decode_one (a b : Char) :
    decode [a, b, '=', '='] = (do decodeOne (← value? a) (← value? b)) := by
  simp only [decode]

/-- Three characters before a fill of one. -/
theorem decode_two {c : Char} (a b : Char) (h : c ≠ '=') :
    decode [a, b, c, '='] = (do decodeTwo (← value? a) (← value? b) (← value? c)) := by
  rw [decode]
  exact fun e => h e

/-- A full group. -/
theorem decode_three {d : Char} (a b c : Char) (rest : List Char) (h : d ≠ '=') :
    decode (a :: b :: c :: d :: rest) = (do
      let group := decodeThree (← value? a) (← value? b) (← value? c) (← value? d)
      return group ++ (← decode rest)) := by
  rw [decode]
  · exact fun _ e => absurd e h
  · exact fun e => absurd e h

theorem decode_encode (bs : List UInt8) : decode (encode bs) = some bs := by
  fun_induction encode bs with
  | case1 => rfl
  | case2 a =>
    have ha := a.toNat_lt
    rw [decode_one, value?_digit (by omega), value?_digit (by omega)]
    simp only [Option.bind_eq_bind, Option.bind_some, decodeOne]
    rw [if_pos (by omega), show a.toNat / 4 * 4 + a.toNat % 4 * 16 / 16 = a.toNat by omega]
    simp
  | case3 a b =>
    have ha := a.toNat_lt
    have hb := b.toNat_lt
    rw [decode_two _ _ (digit_ne_fill (by omega)), value?_digit (by omega), value?_digit (by omega),
      value?_digit (by omega)]
    simp only [Option.bind_eq_bind, Option.bind_some, decodeTwo]
    rw [if_pos (by omega),
      show a.toNat / 4 * 4 + (a.toNat % 4 * 16 + b.toNat / 16) / 16 = a.toNat by omega,
      show (a.toNat % 4 * 16 + b.toNat / 16) % 16 * 16 + b.toNat % 16 * 4 / 4 = b.toNat by omega]
    simp
  | case4 a b c rest ih =>
    have ha := a.toNat_lt
    have hb := b.toNat_lt
    have hc := c.toNat_lt
    rw [decode_three _ _ _ _ (digit_ne_fill (by omega)), value?_digit (by omega),
      value?_digit (by omega), value?_digit (by omega), value?_digit (by omega), ih]
    simp only [Option.bind_eq_bind, Option.bind_some, decodeThree]
    rw [show a.toNat / 4 * 4 + (a.toNat % 4 * 16 + b.toNat / 16) / 16 = a.toNat by omega,
      show (a.toNat % 4 * 16 + b.toNat / 16) % 16 * 16 + (b.toNat % 16 * 4 + c.toNat / 64) / 4 =
        b.toNat by omega,
      show (b.toNat % 16 * 4 + c.toNat / 64) % 4 * 64 + c.toNat % 64 = c.toNat by omega]
    simp

theorem eq_encode_of_decode {cs : List Char} {bs : List UInt8} (h : decode cs = some bs) :
    cs = encode bs := by
  fun_induction decode cs generalizing bs with
  | case1 => simp_all [encode]
  | case2 a b =>
    simp only [Option.bind_eq_bind, Option.bind_eq_some_iff, decodeOne] at h
    obtain ⟨w, hw, x, hx, h⟩ := h
    obtain ⟨rfl, hw⟩ := eq_digit_of_value? hw
    obtain ⟨rfl, hx⟩ := eq_digit_of_value? hx
    split at h <;> simp only [Option.some.injEq, reduceCtorEq] at h
    subst h
    have : (UInt8.ofNat (w * 4 + x / 16)).toNat = w * 4 + x / 16 := by
      rw [UInt8.toNat_ofNat']; omega
    simp only [encode, this, List.cons.injEq, and_true]
    constructor <;> congr 1 <;> omega
  | case3 a b c hc =>
    simp only [Option.bind_eq_bind, Option.bind_eq_some_iff, decodeTwo] at h
    obtain ⟨w, hw, x, hx, y, hy, h⟩ := h
    obtain ⟨rfl, hw⟩ := eq_digit_of_value? hw
    obtain ⟨rfl, hx⟩ := eq_digit_of_value? hx
    obtain ⟨rfl, hy⟩ := eq_digit_of_value? hy
    split at h <;> simp only [Option.some.injEq, reduceCtorEq] at h
    subst h
    have h1 : (UInt8.ofNat (w * 4 + x / 16)).toNat = w * 4 + x / 16 := by
      rw [UInt8.toNat_ofNat']; omega
    have h2 : (UInt8.ofNat (x % 16 * 16 + y / 4)).toNat = x % 16 * 16 + y / 4 := by
      rw [UInt8.toNat_ofNat']; omega
    simp only [encode, h1, h2, List.cons.injEq, and_true]
    refine ⟨?_, ?_, ?_⟩ <;> congr 1 <;> omega
  | case4 a b c d rest _ _ ih =>
    simp only [Option.bind_eq_bind, Option.bind_eq_some_iff, decodeThree, Option.pure_def,
      Option.some.injEq] at h
    obtain ⟨w, hw, x, hx, y, hy, z, hz, tail, ht, h⟩ := h
    obtain ⟨rfl, hw⟩ := eq_digit_of_value? hw
    obtain ⟨rfl, hx⟩ := eq_digit_of_value? hx
    obtain ⟨rfl, hy⟩ := eq_digit_of_value? hy
    obtain ⟨rfl, hz⟩ := eq_digit_of_value? hz
    subst h
    have h1 : (UInt8.ofNat (w * 4 + x / 16)).toNat = w * 4 + x / 16 := by
      rw [UInt8.toNat_ofNat']; omega
    have h2 : (UInt8.ofNat (x % 16 * 16 + y / 4)).toNat = x % 16 * 16 + y / 4 := by
      rw [UInt8.toNat_ofNat']; omega
    have h3 : (UInt8.ofNat (y % 4 * 64 + z)).toNat = y % 4 * 64 + z := by
      rw [UInt8.toNat_ofNat']; omega
    simp only [List.cons_append, List.nil_append, encode, h1, h2, h3, ← ih ht, List.cons.injEq,
      and_true]
    refine ⟨?_, ?_, ?_, ?_⟩ <;> congr 1 <;> omega
  | case5 => cases h

/-- **A text is read as some bytes exactly if it is what they are written as.** -/
theorem decode_eq_some_iff {cs : List Char} {bs : List UInt8} :
    decode cs = some bs ↔ cs = encode bs :=
  ⟨eq_encode_of_decode, fun h => h ▸ decode_encode bs⟩

end SlotBroker.Codec.Base64
