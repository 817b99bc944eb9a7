import Mathlib.Data.List.Infix
import SlotBroker.Json.Record
import SlotBroker.Proofs.Akin

/-!
# Records that differ in a secret

A record is read from left to right. If a string comes where its reader awaits the value of a field,
the reader goes on with what comes after the string, and of what it gives in the end only that value
depends on the string. So one secret may stand for another: the same is read but for the secret, or
the same fault is found. The two texts need not be of one length, so the fuel of the reader has to
be enough for both; it is, since no reader leaves more than it was given.

Results:
* `length_readNumber_le`, `length_skipValue_le`, ...: what readers leave.
* `readMembers_eq_of_lt`: members are read with any fuel that is enough.
* `both_readMember`, `both_readMembers`, `both_values`: members read alike go on alike.
* **`both_recordOf`**: nothing but a secret is read differently if another one is put for it.
* `Opens.awaits`, `Awaits.first`, `Awaits.of_list`: where secrets are awaited.
* **`textsFor_of_recordOf`**: of a record of texts nothing but texts is read, one for each field.
-/

namespace SlotBroker.Json

/-! ## What readers leave -/

theorem ok_of_map_eq_ok {ε α β : Type} {f : α → β} {x : Except ε α} {b : β}
    (h : x.map f = .ok b) : ∃ a, x = .ok a ∧ f a = b := by
  cases x with
  | error e => cases h
  | ok a => exact ⟨a, rfl, Except.ok.inj h⟩

theorem ok_of_bind_eq_ok {ε α β : Type} {f : α → Except ε β} {x : Except ε α} {b : β}
    (h : (x >>= f) = .ok b) : ∃ a, x = .ok a ∧ f a = .ok b := by
  cases x with
  | error e => cases h
  | ok a => exact ⟨a, rfl, h⟩

theorem length_skipBlanks_le (cs : List Char) : (skipBlanks cs).length ≤ cs.length :=
  (List.dropWhile_suffix _).length_le

theorem length_lt_of_skipBlanks {cs rest : List Char} {c : Char} (h : skipBlanks cs = c :: rest) :
    rest.length < cs.length := by
  have := length_skipBlanks_le cs
  rwa [h] at this

theorem length_readString_le {cs s rest : List Char} (h : readString cs = .ok (s, rest)) :
    rest.length ≤ cs.length := by
  fun_induction readString cs generalizing s rest with
  | case1 tail =>
    cases h
    simp
  | case5 _ _ _ _ _ _ _ _ _ _ _ _ _ _ _ _ ih | case8 _ _ _ _ _ _ _ _ _ ih
  | case10 _ _ _ _ _ ih | case12 _ _ _ _ _ _ ih =>
    obtain ⟨r, hr, heq⟩ := ok_of_map_eq_ok h
    cases heq
    have := ih hr
    simp only [List.length_cons]
    omega
  | case2 | case3 | case4 | case6 | case7 | case9 | case11 | case13 => cases h

theorem length_skipString_le {cs rest : List Char} (h : skipString cs = .ok rest) :
    rest.length ≤ cs.length := by
  fun_induction skipString cs with
  | case1 tail =>
    cases h
    simp
  | case2 _ _ _ _ _ _ ih | case4 _ _ _ _ ih | case7 _ _ _ _ _ _ ih =>
    have := ih h
    simp only [List.length_cons]
    omega
  | case3 | case5 | case6 | case8 => cases h

theorem length_readDigits_le {cs ds rest : List Char} (h : readDigits cs = .ok (ds, rest)) :
    rest.length ≤ cs.length := by
  unfold readDigits at h
  split at h
  · cases h
  · cases h
    exact (List.dropWhile_suffix _).length_le

theorem length_readWhole_le {cs ds rest : List Char} (h : readWhole cs = .ok (ds, rest)) :
    rest.length ≤ cs.length := by
  unfold readWhole at h
  split at h
  · split at h <;> cases h
    simp
  · exact length_readDigits_le h

theorem length_readFraction_le {cs rest : List Char} {ds : Option (List Char)}
    (h : readFraction cs = .ok (ds, rest)) : rest.length ≤ cs.length := by
  unfold readFraction at h
  split at h
  · obtain ⟨r, hr, heq⟩ := ok_of_map_eq_ok h
    cases heq
    exact (length_readDigits_le hr).trans (Nat.le_succ _)
  · cases h
    exact Nat.le_refl _

theorem length_readPower_le {cs rest : List Char} {n : Option Int}
    (h : readPower cs = .ok (n, rest)) : rest.length ≤ cs.length := by
  have digits : ∀ {tail : List Char} {f : List Char × List Char → Option Int × List Char},
      (∀ r, (f r).2 = r.2) → (readDigits tail).map f = .ok (n, rest) →
        rest.length ≤ tail.length := by
    intro tail f rests hf
    obtain ⟨r, hr, heq⟩ := ok_of_map_eq_ok hf
    have same := rests r
    rw [heq] at same
    rw [show rest = r.2 from same]
    exact length_readDigits_le hr
  unfold readPower at h
  split at h
  · split at h <;> have := digits (fun _ => rfl) h <;>
      simp only [List.length_cons] at this ⊢ <;> omega
  · split at h <;> have := digits (fun _ => rfl) h <;>
      simp only [List.length_cons] at this ⊢ <;> omega
  · cases h
    exact Nat.le_refl _

theorem length_readNumber_le {cs rest : List Char} {n : Number}
    (h : readNumber cs = .ok (n, rest)) : rest.length ≤ cs.length := by
  unfold readNumber at h
  obtain ⟨⟨before, cs₁⟩, whole, h⟩ := ok_of_bind_eq_ok h
  obtain ⟨⟨fraction, cs₂⟩, point, h⟩ := ok_of_bind_eq_ok h
  obtain ⟨⟨power, cs₃⟩, exponent, h⟩ := ok_of_bind_eq_ok h
  cases h
  refine (length_readPower_le exponent).trans ((length_readFraction_le point).trans
    ((length_readWhole_le whole).trans ?_))
  split
  · exact Nat.le_succ _
  · exact Nat.le_refl _

theorem length_skipWord_le {w cs rest : List Char} (h : skipWord w cs = .ok rest) :
    rest.length ≤ cs.length := by
  fun_induction skipWord w cs with
  | case1 cs =>
    cases h
    exact Nat.le_refl _
  | case2 w ws cs ih => exact (ih h).trans (Nat.le_succ _)
  | case3 | case4 => cases h

/-- Where the text is skipped, no more is left of it than there was. -/
def Shrinks (skip : List Char → Except Fault (List Char)) : Prop :=
  ∀ cs rest, skip cs = .ok rest → rest.length ≤ cs.length

theorem shrinks_skipNested {fuel : Nat} (items : Shrinks (skipItems fuel))
    (members : Shrinks (skipMembers fuel)) : Shrinks (skipNested (fuel + 1)) := by
  intro cs rest h
  unfold skipNested at h
  split at h
  · rename_i tail heq
    exact (length_skipString_le h).trans (length_lt_of_skipBlanks heq).le
  · rename_i tail heq
    have opened := length_lt_of_skipBlanks heq
    split at h
    · rename_i heq'
      cases h
      exact (length_lt_of_skipBlanks heq').le.trans opened.le
    · exact (items _ _ h).trans ((length_skipBlanks_le tail).trans opened.le)
  · rename_i tail heq
    have opened := length_lt_of_skipBlanks heq
    split at h
    · rename_i heq'
      cases h
      exact (length_lt_of_skipBlanks heq').le.trans opened.le
    · exact (members _ _ h).trans ((length_skipBlanks_le tail).trans opened.le)
  -- the words null, true and false
  iterate 3
    · rename_i tail heq
      exact (length_skipWord_le h).trans (length_lt_of_skipBlanks heq).le
  · rename_i c tail _ _ _ _ _ _ heq
    split at h
    · obtain ⟨r, number, rfl⟩ := ok_of_map_eq_ok h
      have := length_readNumber_le number
      rw [← heq] at this
      exact this.trans (length_skipBlanks_le cs)
    · cases h
  · cases h

theorem shrinks_skipItems {fuel : Nat} (nested : Shrinks (skipNested fuel))
    (items : Shrinks (skipItems fuel)) : Shrinks (skipItems (fuel + 1)) := by
  intro cs rest h
  obtain ⟨cs₁, item, h⟩ := ok_of_bind_eq_ok h
  have first := nested _ _ item
  split at h
  · rename_i heq
    exact (items _ _ h).trans ((length_lt_of_skipBlanks heq).le.trans first)
  · rename_i heq
    cases h
    exact (length_lt_of_skipBlanks heq).le.trans first
  · cases h

theorem shrinks_skipMembers {fuel : Nat} (nested : Shrinks (skipNested fuel))
    (members : Shrinks (skipMembers fuel)) : Shrinks (skipMembers (fuel + 1)) := by
  intro cs rest h
  unfold skipMembers at h
  split at h
  · rename_i tail heq
    have opened := length_lt_of_skipBlanks heq
    obtain ⟨cs₁, name, h⟩ := ok_of_bind_eq_ok h
    have named := length_skipString_le name
    split at h
    · rename_i heq'
      have colon := length_lt_of_skipBlanks heq'
      obtain ⟨cs₂, value, h⟩ := ok_of_bind_eq_ok h
      have valued := nested _ _ value
      split at h
      · rename_i heq''
        have comma := length_lt_of_skipBlanks heq''
        have others := members _ _ h
        omega
      · rename_i heq''
        have closed := length_lt_of_skipBlanks heq''
        cases h
        omega
      · cases h
    · cases h
  · cases h

theorem shrinks_skip (fuel : Nat) :
    Shrinks (skipNested fuel) ∧ Shrinks (skipItems fuel) ∧ Shrinks (skipMembers fuel) := by
  induction fuel with
  | zero =>
    refine ⟨fun cs rest h => ?_, fun cs rest h => ?_, fun cs rest h => ?_⟩
    · rw [skipNested] at h
      cases h
    · rw [skipItems] at h
      cases h
    · rw [skipMembers] at h
      cases h
  | succ fuel ih =>
    obtain ⟨nested, items, members⟩ := ih
    exact ⟨shrinks_skipNested items members, shrinks_skipItems nested items,
      shrinks_skipMembers nested members⟩

theorem length_skipValue_le {cs rest : List Char} (h : skipValue cs = .ok rest) :
    rest.length ≤ cs.length :=
  (shrinks_skip _).1 _ _ h

theorem length_readScalar_le {kind : Kind} {cs rest : List Char} {v : Scalar}
    (h : readScalar kind cs = .ok (v, rest)) : rest.length ≤ cs.length := by
  unfold readScalar at h
  split at h
  · rename_i heq
    obtain ⟨r, read, pair⟩ := ok_of_map_eq_ok h
    cases pair
    exact (length_readString_le read).trans (length_lt_of_skipBlanks heq).le
  · cases h
  · cases h
  · rename_i c tail heq
    split at h
    · split at h
      · cases h
      · rename_i number
        have := length_readNumber_le number
        rw [← heq] at this
        split at h
        · cases h
        · split at h
          · cases h
          · cases h
            exact this.trans (length_skipBlanks_le cs)
    · cases h

theorem length_readMember_le {fields : List Field} {found found' : Found} {cs rest : List Char}
    (h : readMember fields found cs = .ok (found', rest)) : rest.length ≤ cs.length := by
  unfold readMember at h
  obtain ⟨⟨name, cs₁⟩, named, h⟩ := ok_of_bind_eq_ok h
  have named := length_readString_le named
  dsimp only at h
  split at h
  · cases h
  · split at h
    · rename_i heq
      have colon := length_lt_of_skipBlanks heq
      split at h
      · obtain ⟨cs₂, value, pair⟩ := ok_of_bind_eq_ok h
        cases pair
        exact (length_skipValue_le value).trans (colon.le.trans named)
      · obtain ⟨⟨v, cs₂⟩, value, pair⟩ := ok_of_bind_eq_ok h
        cases pair
        exact (length_readScalar_le value).trans (colon.le.trans named)
    · cases h

/-- Members are read with any fuel that is enough. -/
theorem readMembers_eq_of_lt {fields : List Field} {m n : Nat} {found : Found} {cs : List Char}
    (hm : cs.length < m) (hn : cs.length < n) :
    readMembers fields m found cs = readMembers fields n found cs := by
  induction m generalizing n found cs with
  | zero => exact absurd hm (Nat.not_lt_zero _)
  | succ m ih =>
    obtain ⟨n, rfl⟩ := Nat.exists_eq_add_one_of_ne_zero (Nat.ne_zero_of_lt hn)
    rw [readMembers, readMembers]
    split
    · rfl
    · rename_i tail comma
      have comma := length_lt_of_skipBlanks comma
      split
      · rename_i tail' quote
        have quote := length_lt_of_skipBlanks quote
        cases member : readMember fields found tail' with
        | error e => rfl
        | ok r =>
          have read : r.2.length ≤ tail'.length := length_readMember_le member
          exact ih (by omega) (by omega)
      · rfl
    · rfl

/-! ## Values that are not shown -/

/-- The values are the same, or texts under the name `secret`, neither of them empty. -/
inductive Veiled (secret : String) : String → Scalar → Scalar → Prop
  | same (name : String) (v : Scalar) : Veiled secret name v v
  | texts {s s' : String} : s ≠ "" → s' ≠ "" → Veiled secret secret (.text s) (.text s')

/-- What is found is the same but for a secret. -/
def Found.Alike (secret : String) (found found' : Found) : Prop :=
  ∀ name, Option.Rel (Veiled secret name) (found.lookup name) (found'.lookup name)

/-- The values of the fields are the same but for a secret. -/
inductive ValuesAlike (secret : String) : List Field → List Scalar → List Scalar → Prop
  | same (fields : List Field) (vs : List Scalar) : ValuesAlike secret fields vs vs
  | cons {f : Field} {v v' : Scalar} {fields : List Field} {vs vs' : List Scalar} :
      Veiled secret f.name v v' → ValuesAlike secret fields vs vs' →
        ValuesAlike secret (f :: fields) (v :: vs) (v' :: vs')

/-- What is left to read is the same, and what is read is related. -/
def AndRest {α : Type} (R : α → α → Prop) (r r' : α × List Char) : Prop := R r.1 r'.1 ∧ r.2 = r'.2

variable {secret : String} {fields : List Field} {found found' : Found}

theorem Found.Alike.refl (found : Found) : found.Alike secret found := fun name => by
  cases found.lookup name with
  | none => exact .none
  | some v => exact .some (.same name v)

theorem Found.Alike.cons {name : String} {v v' : Scalar} (h : found.Alike secret found')
    (hv : Veiled secret name v v') :
    Found.Alike secret ((name, v) :: found) ((name, v') :: found') := by
  intro sought
  rw [List.lookup_cons, List.lookup_cons]
  cases same : sought == name with
  | true =>
    obtain rfl := eq_of_beq same
    exact .some hv
  | false => exact h sought

theorem Found.Alike.isSome_eq (h : found.Alike secret found') (name : String) :
    (found.lookup name).isSome = (found'.lookup name).isSome := by
  have here := h name
  generalize found.lookup name = x at here ⊢
  generalize found'.lookup name = x' at here ⊢
  cases here <;> rfl

theorem ValuesAlike.append {before after : List Field} {front vs vs' : List Scalar}
    (count : front.length = before.length) (h : ValuesAlike secret after vs vs') :
    ValuesAlike secret (before ++ after) (front ++ vs) (front ++ vs') := by
  induction before generalizing front with
  | nil =>
    obtain rfl := List.length_eq_zero_iff.1 count
    exact h
  | cons f before ih =>
    obtain ⟨v, front, rfl⟩ := List.exists_cons_of_length_eq_add_one count
    exact .cons (.same _ v) (ih (Nat.succ_inj.1 count))

theorem Veiled.eq_of_ne {name : String} {v v' : Scalar} (h : Veiled secret name v v')
    (ne : name ≠ secret) : v = v' := by
  cases h with
  | same => rfl
  | texts => exact absurd rfl ne

theorem Veiled.symm {name : String} {v v' : Scalar} (h : Veiled secret name v v') :
    Veiled secret name v' v := by
  cases h with
  | same => exact .same _ _
  | texts hs hs' => exact .texts hs' hs

theorem Veiled.trans {name : String} {u v v' : Scalar} (h : Veiled secret name u v)
    (h' : Veiled secret name v v') : Veiled secret name u v' := by
  cases h with
  | same => exact h'
  | texts hs hs' =>
    cases h' with
    | same => exact .texts hs hs'
    | texts _ hs'' => exact .texts hs hs''

/-- A text is veiled as a text, and an empty one as an empty one. -/
theorem Veiled.text_left {name s : String} {v' : Scalar} (h : Veiled secret name (.text s) v') :
    ∃ s', (s = "" ↔ s' = "") ∧ v' = .text s' := by
  cases h with
  | same => exact ⟨s, .rfl, rfl⟩
  | texts hs hs' => exact ⟨_, iff_of_false hs hs', rfl⟩

theorem ValuesAlike.symm {vs vs' : List Scalar} (h : ValuesAlike secret fields vs vs') :
    ValuesAlike secret fields vs' vs := by
  induction h with
  | same => exact .same _ _
  | cons value _ ih => exact .cons value.symm ih

theorem ValuesAlike.cons_left {f : Field} {v : Scalar} {vs ws : List Scalar}
    (h : ValuesAlike secret (f :: fields) (v :: vs) ws) :
    ∃ v' vs', ws = v' :: vs' ∧ Veiled secret f.name v v' ∧ ValuesAlike secret fields vs vs' := by
  cases h with
  | same => exact ⟨v, vs, rfl, .same _ v, .same _ vs⟩
  | cons value rest => exact ⟨_, _, rfl, value, rest⟩

theorem ValuesAlike.nil_left {ws : List Scalar} (h : ValuesAlike secret fields [] ws) :
    ws = [] := by
  cases h
  rfl

theorem ValuesAlike.trans {us vs ws : List Scalar} (h : ValuesAlike secret fields us vs)
    (h' : ValuesAlike secret fields vs ws) : ValuesAlike secret fields us ws := by
  induction h generalizing ws with
  | same => exact h'
  | cons value _ ih =>
    obtain ⟨_, _, rfl, value', rest'⟩ := h'.cons_left
    exact .cons (value.trans value') (ih rest')

/-! ## Reading on -/

theorem both_readMember (alike : found.Alike secret found') (cs : List Char) :
    Both (AndRest (Found.Alike secret)) (readMember fields found cs)
      (readMember fields found' cs) := by
  unfold readMember
  refine .bind_same fun r => ?_
  dsimp only
  rw [alike.isSome_eq]
  split
  · exact .fault _
  · split
    · split
      · exact .bind_same fun rest => .value ⟨alike, rfl⟩
      · exact .bind_same fun v => .value ⟨alike.cons (.same _ _), rfl⟩
    · exact .fault _

theorem both_readMembers (fuel : Nat) (alike : found.Alike secret found') (cs : List Char) :
    Both (AndRest (Found.Alike secret)) (readMembers fields fuel found cs)
      (readMembers fields fuel found' cs) := by
  induction fuel generalizing found found' cs with
  | zero => exact .fault _
  | succ fuel ih =>
    unfold readMembers
    split
    · exact .value ⟨alike, rfl⟩
    · split
      · refine .bind (both_readMember alike _) fun r r' ⟨alike, rest⟩ => ?_
        dsimp only
        rw [rest]
        exact ih alike _
      · exact .fault _
    · exact .fault _

theorem both_values (alike : found.Alike secret found') (fields : List Field) :
    Both (ValuesAlike secret fields) (found.values fields) (found'.values fields) := by
  induction fields with
  | nil => exact .value (.same _ _)
  | cons f fs ih =>
    rw [Found.values, Found.values]
    have here := alike f.name
    have listed : ∀ {v v' : Scalar}, Veiled secret f.name v v' →
        Both (ValuesAlike secret (f :: fs)) (found.values fs >>= fun vs => pure (v :: vs))
          (found'.values fs >>= fun vs => pure (v' :: vs)) :=
      fun veiled => .bind ih fun _ _ rest => .value (.cons veiled rest)
    generalize found.lookup f.name = x at here ⊢
    generalize found'.lookup f.name = x' at here ⊢
    cases here with
    | some veiled => exact listed veiled
    | none =>
      cases f.fallback with
      | none => exact .fault _
      | some v => exact listed (.same _ v)

/-! ## Secrets in texts -/

/-- The characters, a closing quote at their end, write a string whatever comes after them. -/
def IsLiteral (l : List Char) (s : String) : Prop :=
  ∀ rest, readString (l ++ rest) = .ok (s.toList, rest)

/-- The values of a record of which some members are read, and `cs` is left. -/
def readOn (fields : List Field) (found : Found) (cs : List Char) :
    Except Fault (List Scalar × List Char) := do
  let (found, rest) ← readMembers fields (cs.length + 1) found cs
  return (← found.values fields, rest)

/-- Who reads a record takes a string that comes after `pre` for the value of a field, or has
stopped before. -/
inductive Awaits (fields : List Field) (name : String) (pre : List Char) : Prop
  /-- It is the value of a member. -/
  | member (found : Found)
      (next : ∀ l s post, IsLiteral l s → readRecord fields (pre ++ '"' :: (l ++ post)) =
        readOn fields ((name, .text s) :: found) post)
  /-- It is an item of a list. -/
  | item (front : List Scalar) {before after : List Field} {f : Field}
      (split : fields = before ++ f :: after) (named : f.name = name)
      (count : front.length = before.length)
      (next : ∀ l s post, IsLiteral l s → readRecord fields (pre ++ '"' :: (l ++ post)) =
        (readPositional after false post).map fun r => (front ++ .text s :: r.1, r.2))
  /-- It is not reached. -/
  | never (fault : Fault) (next : ∀ rest, readRecord fields (pre ++ rest) = .error fault)

theorem both_readOn (alike : found.Alike secret found') (cs : List Char) :
    Both (AndRest (ValuesAlike secret fields)) (readOn fields found cs)
      (readOn fields found' cs) :=
  .bind (both_readMembers _ alike cs) fun _ _ ⟨alike, rest⟩ =>
    .bind (both_values alike fields) fun _ _ values => .value ⟨values, rest⟩

/-- **Nothing but a secret is read differently** if one is put for another where it is awaited. -/
theorem both_recordOf {pre post l l' : List Char} {s s' : String}
    (awaits : Awaits fields secret pre) (hl : IsLiteral l s) (hl' : IsLiteral l' s') (hs : s ≠ "")
    (hs' : s' ≠ "") :
    Both (ValuesAlike secret fields) (recordOf fields (String.ofList (pre ++ '"' :: (l ++ post))))
      (recordOf fields (String.ofList (pre ++ '"' :: (l' ++ post)))) := by
  have read : Both (AndRest (ValuesAlike secret fields))
      (readRecord fields (pre ++ '"' :: (l ++ post)))
      (readRecord fields (pre ++ '"' :: (l' ++ post))) := by
    cases awaits with
    | member found next =>
      rw [next _ _ _ hl, next _ _ _ hl']
      exact both_readOn ((Found.Alike.refl found).cons (.texts hs hs')) post
    | item front split named count next =>
      subst split named
      rw [next _ _ _ hl, next _ _ _ hl']
      cases readPositional _ false post with
      | error e => exact .fault e
      | ok r => exact .value ⟨.append count (.cons (.texts hs hs') (.same _ _)), rfl⟩
    | never fault next =>
      rw [next, next]
      exact .fault fault
  unfold recordOf entire
  rw [String.toList_ofList, String.toList_ofList]
  refine .bind read fun r r' ⟨values, rest⟩ => ?_
  dsimp only
  rw [rest]
  split
  · exact .value values
  · exact .fault _

/-! ## Members as they are written

Members without blanks, in any order. -/

/-- The character stands for itself in a string. -/
def isPlain (c : Char) : Bool := !(c.toNat < 0x20 || c = '\\') && c ≠ '"'

theorem readString_plain {c : Char} (h : isPlain c) (cs : List Char) :
    readString (c :: cs) = (readString cs).map fun r => (c :: r.1, r.2) := by
  simp only [isPlain, Bool.and_eq_true, Bool.not_eq_true', decide_eq_true_eq, ne_eq] at h
  obtain ⟨plain, noQuote⟩ := h
  have noEscape : c ≠ '\\' := fun escape => by
    rw [escape] at plain
    cases plain
  rw [readString.eq_def]
  split
  · exact absurd (List.cons.inj ‹_›).1 noQuote
  · exact absurd (List.cons.inj ‹_›).1 noEscape
  · exact absurd (List.cons.inj ‹_›).1 noEscape
  · rename_i heq
    obtain ⟨rfl, rfl⟩ := List.cons.inj heq
    rw [plain]
    rfl
  · cases ‹_›

/-- A text without controls, quotes and escapes is written as it is. -/
theorem isLiteral_of_plain {s : String} (h : s.toList.all isPlain) :
    IsLiteral (s.toList ++ ['"']) s := by
  intro rest
  rw [List.append_assoc]
  generalize s.toList = cs at h
  induction cs with
  | nil => exact readString.eq_1 rest
  | cons c cs ih =>
    rw [List.all_cons, Bool.and_eq_true] at h
    rw [List.cons_append, readString_plain h.1, ih h.2]
    rfl

/-- A member with a text, after its opening quote. -/
def textMember (name value : List Char) : List Char := name ++ ':' :: '"' :: value

/-- The fields of a record of texts. -/
def textFields (names : List String) : List Field := names.map fun n => { name := n, kind := .text }

theorem find?_textFields {n : String} {names : List String} (h : n ∈ names) :
    (textFields names).find? (fun f => f.name = n) = some { name := n, kind := .text } := by
  induction names with
  | nil => cases h
  | cons m names ih =>
    rw [textFields, List.map_cons, List.find?_cons]
    by_cases same : m = n
    · simp only [same, decide_true]
    · simp only [same, decide_false]
      exact ih ((List.mem_cons.1 h).resolve_left (Ne.symm same))

variable {pre k l : List Char} {n s : String} {names : List String}

/-- A record is opened and some of its members are read. -/
def Opens (fields : List Field) (pre : List Char) (found : Found) : Prop :=
  ∀ rest, readRecord fields (pre ++ rest) = readOn fields found rest

theorem readScalar_text (hl : IsLiteral l s) (rest : List Char) :
    readScalar .text ('"' :: (l ++ rest)) = .ok (.text s, rest) := by
  change (readString (l ++ rest)).map _ = _
  rw [hl]
  change Except.ok (Scalar.text (String.ofList s.toList), rest) = _
  rw [String.ofList_toList]

/-- A list begins with the first of the texts. -/
theorem Awaits.of_list : Awaits (textFields (n :: names)) n ['['] :=
  @item (textFields (n :: names)) n ['['] [] [] (textFields names) { name := n, kind := .text }
    rfl rfl rfl fun l s post hl => by
      change readScalar .text ('"' :: (l ++ post)) >>= _ = _
      rw [readScalar_text hl]
      change readPositional (textFields names) false post >>= _ = _
      cases readPositional (textFields names) false post <;> rfl

section

variable (known : n ∈ names)
include known

theorem readMember_text (fresh : found.lookup n = none) (hk : IsLiteral k n) (hl : IsLiteral l s)
    (rest : List Char) :
    readMember (textFields names) found (textMember k l ++ rest) =
      .ok ((n, .text s) :: found, rest) := by
  unfold readMember textMember
  rw [List.append_assoc, hk]
  change (if ((textFields names).find? fun f => f.name = String.ofList n.toList).isSome &&
    (found.lookup (String.ofList n.toList)).isSome then _ else _) = _
  rw [String.ofList_toList, find?_textFields known, fresh]
  change readScalar .text ('"' :: (l ++ rest)) >>= _ = _
  rw [readScalar_text hl]
  rfl

theorem Opens.first (hk : IsLiteral k n) (hl : IsLiteral l s) :
    Opens (textFields names) ('{' :: '"' :: textMember k l) [(n, .text s)] := by
  intro rest
  have read : readMember (textFields names) [] (textMember k l ++ rest) = _ :=
    readMember_text known rfl hk hl rest
  change (do
    let (found, rest) ← do
      let (found, rest) ← readMember (textFields names) [] (textMember k l ++ rest)
      readMembers (textFields names) (rest.length + 1) found rest
    return (← found.values (textFields names), rest)) = _
  rw [read]
  rfl

theorem Opens.next (h : Opens (textFields names) pre found) (fresh : found.lookup n = none)
    (hk : IsLiteral k n) (hl : IsLiteral l s) :
    Opens (textFields names) (pre ++ ',' :: '"' :: textMember k l) ((n, .text s) :: found) := by
  intro rest
  have read := readMember_text known fresh hk hl rest
  have step : ∀ fuel, readMembers (textFields names) (fuel + 1) found
      (',' :: '"' :: (textMember k l ++ rest)) =
        readMembers (textFields names) fuel ((n, .text s) :: found) rest := by
    intro fuel
    change (readMember (textFields names) found (textMember k l ++ rest) >>= fun r =>
      readMembers (textFields names) fuel r.1 r.2) = _
    rw [read]
    rfl
  have enough : rest.length < (',' :: '"' :: (textMember k l ++ rest)).length := by
    simp only [List.length_cons, List.length_append]
    omega
  rw [List.append_assoc, h, readOn, readOn, List.cons_append, List.cons_append, step,
    readMembers_eq_of_lt enough (Nat.lt_succ_self rest.length)]

theorem Awaits.first (hk : IsLiteral k n) :
    Awaits (textFields names) n ('{' :: '"' :: (k ++ [':'])) :=
  .member [] fun l s post hl => by
    have opens := Opens.first known hk hl post
    simpa [textMember] using opens

theorem Opens.awaits (h : Opens (textFields names) pre found) (fresh : found.lookup n = none)
    (hk : IsLiteral k n) : Awaits (textFields names) n (pre ++ ',' :: '"' :: (k ++ [':'])) :=
  .member found fun l s post hl => by
    have opens := h.next known fresh hk hl post
    simpa [textMember] using opens

end

/-! ## What is read of texts -/

/-- The values are texts, one for each name. -/
def TextsFor (names : List String) (vs : List Scalar) : Prop :=
  ∃ texts : List String, texts.length = names.length ∧ vs = texts.map .text

variable {cs rest : List Char} {vs : List Scalar}

theorem TextsFor.nil : TextsFor [] [] := ⟨[], rfl, rfl⟩

theorem TextsFor.cons (s : String) (h : TextsFor names vs) :
    TextsFor (n :: names) (.text s :: vs) := by
  obtain ⟨texts, count, rfl⟩ := h
  exact ⟨s :: texts, congrArg (· + 1) count, rfl⟩

theorem text_of_readScalar {v : Scalar} (h : readScalar .text cs = .ok (v, rest)) :
    ∃ s, v = .text s := by
  unfold readScalar at h
  split at h
  · obtain ⟨r, -, pair⟩ := ok_of_map_eq_ok h
    exact ⟨_, (Prod.mk.inj pair).1.symm⟩
  · cases h
  · rename_i kind _
    cases kind
  · rename_i kind _
    cases kind

/-- Only texts are found. -/
def Found.OfTexts (found : Found) : Prop := ∀ p ∈ found, ∃ s, p.2 = .text s

namespace Found.OfTexts

theorem nil : Found.OfTexts [] := fun _ mem => nomatch mem

theorem readMember (h : found.OfTexts)
    (read : readMember (textFields names) found cs = .ok (found', rest)) : found'.OfTexts := by
  unfold Json.readMember at read
  obtain ⟨⟨name, cs₁⟩, -, read⟩ := ok_of_bind_eq_ok read
  dsimp only at read
  split at read
  · cases read
  · split at read
    · split at read
      · obtain ⟨cs₂, -, pair⟩ := ok_of_bind_eq_ok read
        cases pair
        exact h
      · rename_i f known
        obtain ⟨⟨v, cs₂⟩, value, pair⟩ := ok_of_bind_eq_ok read
        cases pair
        obtain ⟨_, -, rfl⟩ := List.mem_map.1 (List.mem_of_find?_eq_some known)
        exact List.forall_mem_cons.2 ⟨text_of_readScalar value, h⟩
    · cases read

theorem readMembers {fuel : Nat} (h : found.OfTexts)
    (read : readMembers (textFields names) fuel found cs = .ok (found', rest)) :
    found'.OfTexts := by
  induction fuel generalizing found cs with
  | zero => cases read
  | succ fuel ih =>
    unfold Json.readMembers at read
    split at read
    · cases read
      exact h
    · split at read
      · obtain ⟨⟨found₁, cs₁⟩, member, read⟩ := ok_of_bind_eq_ok read
        exact ih (h.readMember member) read
      · cases read
    · cases read

theorem values (h : found.OfTexts) (read : found.values (textFields names) = .ok vs) :
    TextsFor names vs := by
  induction names generalizing vs with
  | nil =>
    cases read
    exact .nil
  | cons n names ih =>
    rw [textFields, List.map_cons, Found.values] at read
    dsimp only at read
    cases known : found.lookup n with
    | none =>
      rw [known] at read
      cases read
    | some v =>
      rw [known] at read
      obtain ⟨before, after, rfl, -⟩ := List.lookup_eq_some_iff.1 known
      obtain ⟨s, rfl⟩ : ∃ s, v = .text s := h (n, v) (by simp)
      obtain ⟨vs', others, heq⟩ := ok_of_bind_eq_ok read
      cases heq
      exact (ih others).cons s

end Found.OfTexts

theorem textsFor_of_readPositional {isFirst : Bool}
    (read : readPositional (textFields names) isFirst cs = .ok (vs, rest)) :
    TextsFor names vs := by
  induction names generalizing isFirst cs vs with
  | nil =>
    rw [textFields, List.map_nil, readPositional] at read
    split at read <;> cases read
    exact .nil
  | cons n names ih =>
    have item : ∀ {cs₁}, (readScalar .text cs₁ >>= fun r =>
        readPositional (textFields names) false r.2 >>= fun r' =>
          pure (r.1 :: r'.1, r'.2)) = .ok (vs, rest) → TextsFor (n :: names) vs := by
      intro cs₁ read
      obtain ⟨⟨v, cs₂⟩, value, read⟩ := ok_of_bind_eq_ok read
      obtain ⟨⟨vs', cs₃⟩, others, pair⟩ := ok_of_bind_eq_ok read
      cases pair
      obtain ⟨s, rfl⟩ := text_of_readScalar value
      exact (ih others).cons s
    rw [textFields, List.map_cons, readPositional] at read
    split at read
    · obtain ⟨vs', given, pair⟩ := ok_of_bind_eq_ok read
      cases pair
      exact Found.OfTexts.nil.values given
    · cases read
    · dsimp only at read
      split at read
      · exact item read
      · split at read
        · split at read
          · cases read
          · exact item read
        · cases read

theorem textsFor_of_readRecord
    (read : readRecord (textFields names) cs = .ok (vs, rest)) : TextsFor names vs := by
  unfold readRecord at read
  split at read
  · exact textsFor_of_readPositional read
  · have given : ∀ {found : Found} {cs₁}, found.OfTexts →
        (found.values (textFields names) >>= fun vs => pure (vs, cs₁)) = .ok (vs, rest) →
          TextsFor names vs := by
      intro found cs₁ texts read
      obtain ⟨vs', given, pair⟩ := ok_of_bind_eq_ok read
      cases pair
      exact texts.values given
    dsimp only at read
    split at read
    · exact given .nil read
    · obtain ⟨⟨found₁, cs₁⟩, first, read⟩ := ok_of_bind_eq_ok read
      obtain ⟨⟨found₂, cs₂⟩, others, read⟩ := ok_of_bind_eq_ok read
      exact given ((Found.OfTexts.nil.readMember first).readMembers others) read
    · cases read
  · cases read

/-- **What is read of a record of texts is texts**, one for each field. -/
theorem textsFor_of_recordOf {body : String}
    (read : recordOf (textFields names) body = .ok vs) : TextsFor names vs := by
  obtain ⟨⟨vs', left⟩, read, whole⟩ := ok_of_bind_eq_ok read
  dsimp only at whole
  split at whole
  · cases whole
    exact textsFor_of_readRecord read
  · cases whole

end SlotBroker.Json
