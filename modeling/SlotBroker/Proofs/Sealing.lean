import Mathlib
import SlotBroker.Codec.Seal
import SlotBroker.Failure

/-!
# The one sealed form of a secret

What a sealed text has to look like is said here without reading or writing: its characters come in
whole groups of four, all of them from the alphabet but for at most two fill signs at the very end,
and the bits that the fill leaves over are zero. A text of this form, and no other, is the Base64
form of some bytes, and it opens if those bytes are UTF-8 under the mask.

Results:
* `Base64.isSome_decode_iff`: exactly the texts of this form are read.
* **`sealing_exact`**: a text opens to a secret exactly if it is what the secret seals to; a text
  that is none fails, and the failure tells whether the form or the UTF-8 was wrong.
-/

namespace SlotBroker.Codec

/-! ## The form of Base64 texts -/

namespace Base64

/-- Some characters of the alphabet fit a number of fill signs after them. -/
structure Fits (body : List Char) (fill : Nat) : Prop where
  letters : ∀ c ∈ body, c ∈ alphabet
  few : fill ≤ 2
  whole : (body.length + fill) % 4 = 0
  /-- The last character has two bits too many for each fill sign, and they are zero. -/
  spare : ∀ c ∈ body.getLast?, ∀ n, value? c = some n → n % 4 ^ fill = 0

/-- A text has the form of Base64: characters of the alphabet, and fill signs after them. -/
def WellFormed (cs : List Char) : Prop :=
  ∃ body fill, cs = body ++ List.replicate fill '=' ∧ Fits body fill

theorem digit_mem {n : Nat} (h : n < 64) : digit n ∈ alphabet := by
  revert n
  decide

theorem exists_value? {c : Char} (h : c ∈ alphabet) : ∃ n, value? c = some n :=
  Option.isSome_iff_exists.1 (List.isSome_idxOf?.2 h)

theorem ne_fill {c : Char} (h : c ∈ alphabet) : c ≠ '=' := by
  rintro rfl
  obtain ⟨n, hn⟩ := exists_value? h
  cases value?_fill.symm.trans hn

/-- A last group with fill signs fits if the bits that are left over are zero. -/
theorem Fits.last {body : List Char} {n fill : Nat} (letters : ∀ c ∈ body, c ∈ alphabet)
    (few : fill ≤ 2) (whole : (body.length + 1 + fill) % 4 = 0) (h : n < 64)
    (zero : n % 4 ^ fill = 0) : Fits (body ++ [digit n]) fill := by
  refine ⟨fun c hc => ?_, few, by simpa using whole, fun c hc m hm => ?_⟩
  · rcases List.mem_append.1 hc with hc | hc
    · exact letters c hc
    · exact List.mem_singleton.1 hc ▸ digit_mem h
  · rw [List.getLast?_concat, Option.mem_some_iff] at hc
    rw [← hc, value?_digit h] at hm
    rwa [← Option.some.inj hm]

/-- A full group may stand before what fits. -/
theorem Fits.group {body : List Char} {fill : Nat} {a b c d : Char} (h : Fits body fill)
    (ha : a ∈ alphabet) (hb : b ∈ alphabet) (hc : c ∈ alphabet) (hd : d ∈ alphabet) :
    Fits (a :: b :: c :: d :: body) fill := by
  refine ⟨?_, h.few, ?_, fun e he n hn => ?_⟩
  · simp only [List.mem_cons]
    rintro e (rfl | rfl | rfl | rfl | he) <;> first | assumption | exact h.letters e he
  · have := h.whole
    simp only [List.length_cons]
    omega
  · cases body with
    | nil =>
      -- nothing follows, so there is no fill either
      have whole := h.whole
      have few := h.few
      obtain rfl : fill = 0 := by simp only [List.length_nil] at whole; omega
      exact Nat.mod_one n
    | cons x xs => exact h.spare e (by simpa using he) n hn

/-- What is written has the form. -/
theorem wellFormed_encode (bs : List UInt8) : WellFormed (encode bs) := by
  fun_induction encode bs with
  | case1 =>
    exact ⟨[], 0, rfl, fun _ hc => absurd hc List.not_mem_nil, by omega, rfl,
      fun c hc => absurd hc (Option.not_mem_none c)⟩
  | case2 a =>
    have ha := a.toNat_lt
    refine ⟨[_] ++ [_], 2, rfl, .last ?_ (by omega) (by simp) (by omega) (by omega)⟩
    exact List.forall_mem_singleton.2 (digit_mem (by omega))
  | case3 a b =>
    have ha := a.toNat_lt
    have hb := b.toNat_lt
    refine ⟨[_, _] ++ [_], 1, rfl, .last ?_ (by omega) (by simp) (by omega) (by omega)⟩
    exact List.forall_mem_cons.2
      ⟨digit_mem (by omega), List.forall_mem_singleton.2 (digit_mem (by omega))⟩
  | case4 a b c rest ih =>
    have ha := a.toNat_lt
    have hb := b.toNat_lt
    have hc := c.toNat_lt
    obtain ⟨body, fill, hrest, fits⟩ := ih
    refine ⟨_ :: _ :: _ :: _ :: body, fill, by rw [hrest]; rfl, fits.group ?_ ?_ ?_ ?_⟩ <;>
      exact digit_mem (by omega)

/-- What fits is read. -/
theorem isSome_decode_of_fits {fill : Nat} : ∀ {body : List Char}, Fits body fill →
    (decode (body ++ List.replicate fill '=')).isSome = true
  | [], h => by
    have whole := h.whole
    have few := h.few
    obtain rfl : fill = 0 := by simp only [List.length_nil] at whole; omega
    rfl
  | [a], h => by
    have whole := h.whole
    have few := h.few
    simp only [List.length_singleton] at whole
    omega
  | [a, b], h => by
    have whole := h.whole
    obtain rfl : fill = 2 := by
      have few := h.few
      simp only [List.length_cons, List.length_nil] at whole
      omega
    obtain ⟨w, hw⟩ := exists_value? (h.letters a (by simp))
    obtain ⟨x, hx⟩ := exists_value? (h.letters b (by simp))
    have zero : x % 16 = 0 := h.spare b rfl x hx
    change (decode [a, b, '=', '=']).isSome = true
    rw [decode_one, hw, hx]
    simp [decodeOne, zero]
  | [a, b, c], h => by
    have whole := h.whole
    obtain rfl : fill = 1 := by
      have few := h.few
      simp only [List.length_cons, List.length_nil] at whole
      omega
    have letter := h.letters c (by simp)
    obtain ⟨w, hw⟩ := exists_value? (h.letters a (by simp))
    obtain ⟨x, hx⟩ := exists_value? (h.letters b (by simp))
    obtain ⟨y, hy⟩ := exists_value? letter
    have zero : y % 4 = 0 := h.spare c rfl y hy
    change (decode [a, b, c, '=']).isSome = true
    rw [decode_two _ _ (ne_fill letter), hw, hx, hy]
    simp [decodeTwo, zero]
  | a :: b :: c :: d :: body, h => by
    have letter := h.letters d (by simp)
    obtain ⟨w, hw⟩ := exists_value? (h.letters a (by simp))
    obtain ⟨x, hx⟩ := exists_value? (h.letters b (by simp))
    obtain ⟨y, hy⟩ := exists_value? (h.letters c (by simp))
    obtain ⟨z, hz⟩ := exists_value? letter
    have rest : Fits body fill := by
      refine ⟨fun e he => h.letters e (by simp [he]), h.few, ?_, fun e he n hn => ?_⟩
      · have whole := h.whole
        simp only [List.length_cons] at whole
        omega
      · cases body with
        | nil => cases he
        | cons e' es => exact h.spare e (by simpa using he) n hn
    obtain ⟨bs, hbs⟩ := Option.isSome_iff_exists.1 (isSome_decode_of_fits rest)
    change (decode (a :: b :: c :: d :: (body ++ List.replicate fill '='))).isSome = true
    rw [decode_three _ _ _ _ (ne_fill letter), hw, hx, hy, hz, hbs]
    rfl

/-- **Exactly the texts of this form are read.** -/
theorem isSome_decode_iff {cs : List Char} : (decode cs).isSome = true ↔ WellFormed cs := by
  constructor
  · intro h
    obtain ⟨bs, hbs⟩ := Option.isSome_iff_exists.1 h
    rw [eq_encode_of_decode hbs]
    exact wellFormed_encode bs
  · rintro ⟨body, fill, rfl, fits⟩
    exact isSome_decode_of_fits fits

/-- Of one letter there is no other spelling: not without its fill or with less or more of it, not
with bits left over, a line end, a character of another alphabet, or after a fill. -/
example :
    (["Zg==", "Zg", "Zg=", "Zg===", "Zh==", "Zg==\n", "_g==", "Zg==Zg=="].map fun text =>
      (decode text.toList).isSome) = [true, false, false, false, false, false, false, false] := by
  decide

end Base64

/-! ## Sealed secrets -/

namespace Key

/-- Opens a sealed text, or fails as an operation does. -/
def disclose (k : Key) (text : String) : Except Failure String :=
  (k.reveal text).mapError fun fault => .secretUnreadable fault.message

variable {k : Key} {text secret : String}

theorem disclose_eq_ok_iff : k.disclose text = .ok secret ↔ text = k.conceal secret := by
  rw [← reveal_eq_ok_iff, disclose]
  cases k.reveal text <;> simp [Except.mapError]

theorem disclose_eq_error_iff {e : Failure} : k.disclose text = .error e ↔
    ∃ fault : SealFault, k.reveal text = .error fault ∧ e = .secretUnreadable fault.message := by
  rw [disclose]
  cases k.reveal text <;> simp [Except.mapError, eq_comm]

/-- A text does not open for its form exactly if it has not the form of Base64. -/
theorem reveal_eq_notBase64_iff :
    k.reveal text = .error .notBase64 ↔ ¬ Base64.WellFormed text.toList := by
  rw [← Base64.isSome_decode_iff, reveal]
  cases Base64.decode text.toList with
  | none => simp
  | some masked => cases h : Text.Utf8.ofBytes? (k.mask masked) <;> simp [h]

/-- A text of the right form does not open exactly if no text has the bytes under its mask. -/
theorem reveal_eq_notUtf8_iff : k.reveal text = .error .notUtf8 ↔
    ∃ bs, text = String.ofList (Base64.encode bs) ∧ ∀ s, k.mask bs ≠ Text.Utf8.bytes s := by
  have written : ∀ bs, text = String.ofList (Base64.encode bs) ↔
      Base64.decode text.toList = some bs := fun bs => by
    rw [Base64.decode_eq_some_iff, ← String.toList_inj, String.toList_ofList]
  simp only [written, reveal]
  cases Base64.decode text.toList with
  | none => simp
  | some masked =>
    have unread : Text.Utf8.ofBytes? (k.mask masked) = none ↔
        ∀ s, k.mask masked ≠ Text.Utf8.bytes s := by
      simp only [ne_eq, ← Text.Utf8.ofBytes?_eq_some_iff, Option.eq_none_iff_forall_ne_some]
    simp only [Option.some.injEq, exists_eq_left', ← unread]
    cases Text.Utf8.ofBytes? (k.mask masked) <;> simp

/-- **A secret has one sealed form.** Under any key, so under that of any passphrase, a text opens
to a secret exactly if it is what the secret seals to. So each secret comes back, no two seal alike,
and everything else is refused: what has not the form of Base64 for that, and what has it if the
bytes under the mask are those of no text. -/
theorem sealing_exact (k : Key) :
    (∀ text secret, k.disclose text = .ok secret ↔ text = k.conceal secret) ∧
    (∀ secret, k.disclose (k.conceal secret) = .ok secret) ∧
    Function.Injective k.conceal ∧
    (∀ text, (∀ secret, text ≠ k.conceal secret) →
      ∃ fault : SealFault, k.disclose text = .error (.secretUnreadable fault.message) ∧
        (fault = .notBase64 ↔ ¬ Base64.WellFormed text.toList) ∧
        (fault = .notUtf8 ↔ ∃ bs, text = String.ofList (Base64.encode bs) ∧
          ∀ s, k.mask bs ≠ Text.Utf8.bytes s)) := by
  have opens : ∀ secret, k.disclose (k.conceal secret) = .ok secret := fun secret =>
    disclose_eq_ok_iff.2 rfl
  refine ⟨fun text secret => disclose_eq_ok_iff, opens, fun p q same => ?_, fun text none => ?_⟩
  · have := (opens p).symm.trans ((congrArg k.disclose same).trans (opens q))
    exact Except.ok.inj this
  · cases h : k.reveal text with
    | ok secret => exact absurd (reveal_eq_ok_iff.1 h) (none secret)
    | error fault =>
      refine ⟨fault, disclose_eq_error_iff.2 ⟨fault, h, rfl⟩, ?_, ?_⟩
      · rw [← reveal_eq_notBase64_iff (k := k), h, Except.error.injEq]
      · rw [← reveal_eq_notUtf8_iff, h, Except.error.injEq]

end Key

end SlotBroker.Codec
