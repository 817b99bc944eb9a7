/-!
# Text as UTF-8 bytes

Results:
* **`ofBytes?_eq_some_iff`**: bytes are read as a text exactly if they are its UTF-8 form, so no
  text has a second form.
-/

namespace SlotBroker.Text.Utf8

/-- The UTF-8 form of a text. -/
def bytes (s : String) : List UInt8 := s.toByteArray.data.toList

/-- The text whose UTF-8 form the bytes are. Overlong forms, surrogates, numbers past the last code
point and torn sequences are the form of none. -/
def ofBytes? (bs : List UInt8) : Option String := String.fromUTF8? ⟨bs.toArray⟩

theorem ofBytes?_bytes (s : String) : ofBytes? (bytes s) = some s := by
  have h : (⟨(bytes s).toArray⟩ : ByteArray) = s.toByteArray := by simp [bytes]
  simp only [ofBytes?, h, String.fromUTF8?]
  rw [dif_pos s.isValidUTF8]
  rfl

/-- **Bytes are read as a text exactly if they are its UTF-8 form.** -/
theorem ofBytes?_eq_some_iff {bs : List UInt8} {s : String} :
    ofBytes? bs = some s ↔ bs = bytes s := by
  refine ⟨fun h => ?_, fun h => h ▸ ofBytes?_bytes s⟩
  simp only [ofBytes?, String.fromUTF8?] at h
  split at h
  · rw [Option.some.injEq] at h
    subst h
    simp [bytes, String.fromUTF8]
  · cases h

/-- The text whose UTF-8 form the bytes are, with a replacement mark for each stretch of bytes that
cannot belong to one. -/
def ofBytesLossy (bs : List UInt8) : String := go bs.length bs ""
where
  /-- The number of bytes a sequence takes by its first byte, and the range of its second. -/
  shape (b : UInt8) : Option (Nat × UInt8 × UInt8) :=
    if b < 0x80 then some (1, 0x80, 0xBF)
    else if 0xC2 ≤ b ∧ b ≤ 0xDF then some (2, 0x80, 0xBF)
    else if b = 0xE0 then some (3, 0xA0, 0xBF)
    else if b = 0xED then some (3, 0x80, 0x9F)
    else if 0xE1 ≤ b ∧ b ≤ 0xEF then some (3, 0x80, 0xBF)
    else if b = 0xF0 then some (4, 0x90, 0xBF)
    else if 0xF1 ≤ b ∧ b ≤ 0xF3 then some (4, 0x80, 0xBF)
    else if b = 0xF4 then some (4, 0x80, 0x8F)
    else none
  /-- How many of the bytes after the first go with it: at most `n`, the first of them in a range
  of its own. -/
  tail (n : Nat) (low high : UInt8) : List UInt8 → Nat
    | [] => 0
    | b :: bs =>
      match n with
      | 0 => 0
      | n + 1 => if low ≤ b ∧ b ≤ high then 1 + tail n 0x80 0xBF bs else 0
  /-- One sequence, or one stretch that is none, a round. -/
  go : Nat → List UInt8 → String → String
    | 0, _, acc => acc
    | _ + 1, [], acc => acc
    | fuel + 1, b :: bs, acc =>
      match shape b with
      | none => go fuel bs (acc.push '\uFFFD')
      | some (n, low, high) =>
        let k := tail (n - 1) low high bs
        let read := if k + 1 = n then (ofBytes? (b :: bs.take k)).getD "\uFFFD" else "\uFFFD"
        go fuel (bs.drop k) (acc ++ read)

end SlotBroker.Text.Utf8
