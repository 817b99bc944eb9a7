import Mathlib.Data.List.Nodup
import Mathlib.Data.List.Perm.Subperm
import SlotBroker.Provider

/-!
# What a provider allows

A provider is visited in any order: accounts are registered, also again, logins come from known,
unknown and made-up devices, streams are ended. `Visited start p log` are the providers that visits
lead to from one without accounts, with every visit and whether it succeeded, latest first.

The devices of a login are counted before it is let in: those of the last logins and its own. When
it has been let in, the oldest of them has left the window, so what was within the limit stays so.

Results:
* `distinct_le_of_subset`: fewer devices are fewer distinct ones.
* `recent_opened_subset`: after a login the window holds nothing but the window before it and the
  device of the login.
* `Visited.tracks`: what an account holds is what its visits since the last registration made of it.
* **`visits_keep_limits`**: no account ever has more streams or devices than it may have, and none
  is taken for shared.
-/

namespace SlotBroker

namespace Account

/-! ## Distinct devices -/

theorem nodup_eraseDups : ∀ devices : List String, devices.eraseDups.Nodup
  | [] => List.nodup_nil
  | d :: rest => by
    rw [List.eraseDups_cons]
    refine List.nodup_cons.2 ⟨fun again => ?_, nodup_eraseDups _⟩
    have kept := (List.mem_filter.1 (List.mem_eraseDups.1 again)).2
    simp at kept
termination_by devices => devices.length
decreasing_by
  exact Nat.lt_succ_of_le (List.length_filter_le _ _)

/-- Fewer devices are fewer distinct ones. -/
theorem distinct_le_of_subset {xs ys : List String} (h : xs ⊆ ys) : distinct xs ≤ distinct ys :=
  (nodup_eraseDups xs).length_le_of_subset fun _ hd =>
    List.mem_eraseDups.2 (h (List.mem_eraseDups.1 hd))

/-- The account after a login. -/
def opened (a : Account) (device token : String) : Account :=
  { a with streams := a.streams ++ [token], devices := a.devices ++ [device] }

/-- The account after the end of a stream. -/
def closed (a : Account) (token : String) : Account :=
  { a with streams := a.streams.erase token }

/-- **After a login** the window holds nothing but the window before it and the device of the
login. -/
theorem recent_opened_subset (a : Account) (device token : String) :
    (a.opened device token).recent ⊆ device :: a.recent := by
  intro d hd
  have later : a.devices.length - window ≤ (a.devices ++ [device]).length - window := by
    rw [List.length_append]
    omega
  -- the new window begins no earlier than the old one did
  have among := List.drop_subset_drop_left _ later hd
  rcases List.mem_append.1 (List.drop_append_of_le_length (Nat.sub_le ..) ▸ among) with old | new
  · exact List.mem_cons_of_mem _ old
  · exact List.mem_singleton.1 new ▸ List.mem_cons_self

end Account

/-! ## Logins and ends -/

namespace Provider

variable {p : Provider} {identity secret device token : String}

/-- **A login is refused and changes nothing, or it opens a stream** on the account whose secret it
gives, below the cap and with no more devices than allowed. -/
theorem login_cases (p : Provider) (identity secret device token : String) :
    (∃ f, p.login identity secret device token = (.error f, p)) ∨
      ∃ a, p.accounts.find? identity = some a ∧ a.secret = secret ∧
        a.streams.length < p.maxStreams ∧ p.tooMany (device :: a.recent) = false ∧
        p.login identity secret device token =
          (.ok token, { p with accounts := p.accounts.insert (a.opened device token) }) := by
  unfold login
  cases known : p.accounts.find? identity with
  | none => exact .inl ⟨_, rfl⟩
  | some a =>
    dsimp only
    split
    · exact .inl ⟨_, rfl⟩
    · rename_i right
      split
      · exact .inl ⟨_, rfl⟩
      · rename_i below
        split
        · exact .inl ⟨_, rfl⟩
        · rename_i few
          exact .inr ⟨a, rfl, not_not.1 right, Nat.not_le.1 below, Bool.not_eq_true _ ▸ few, rfl⟩

/-- **The end of a stream fails and changes nothing, or it closes a stream** that was open. -/
theorem endStream_cases (p : Provider) (identity token : String) :
    p.endStream identity token = (false, p) ∨
      ∃ a, p.accounts.find? identity = some a ∧ token ∈ a.streams ∧
        p.endStream identity token =
          (true, { p with accounts := p.accounts.insert (a.closed token) }) := by
  unfold endStream
  cases known : p.accounts.find? identity with
  | none => exact .inl rfl
  | some a =>
    dsimp only
    split
    · rename_i isOpen
      exact .inr ⟨a, rfl, isOpen, rfl⟩
    · exact .inl rfl

theorem endStream_eq_false (h : (p.endStream identity token).1 = false) :
    (p.endStream identity token).2 = p := by
  rcases p.endStream_cases identity token with failed | ⟨a, -, -, ended⟩
  · rw [failed]
  · rw [ended] at h
    cases h

/-- Devices are not too many exactly if the provider does not watch, or they are within its
limit. -/
theorem tooMany_eq_false_iff {devices : List String} :
    p.tooMany devices = false ↔ ∀ n, p.deviceLimit = some n → Account.distinct devices ≤ n := by
  unfold tooMany
  cases p.deviceLimit with
  | none => simp
  | some limit => simp

theorem tooMany_of_subset {xs ys : List String} (h : xs ⊆ ys) (few : p.tooMany ys = false) :
    p.tooMany xs = false :=
  tooMany_eq_false_iff.2 fun n hn =>
    Nat.le_trans (Account.distinct_le_of_subset h) (tooMany_eq_false_iff.1 few n hn)

end Provider

/-! ## Visits -/

/-- What is asked of a provider. -/
inductive Visit where
  /-- An account is opened, in the place of one with the same identity. -/
  | register (identity secret : String)
  /-- A login from a device, or from a made-up one where none is shown. -/
  | login (identity secret : String) (device : Option String) (madeUp token : String)
  | endStream (identity token : String)
  deriving DecidableEq

namespace Visit

/-- The account that is visited. -/
def identity : Visit → String
  | register identity _ | login identity .. | endStream identity _ => identity

/-- The device of a login. -/
def device? : Visit → Option String
  | login _ _ device madeUp _ => some (device.getD madeUp)
  | register .. | endStream .. => none

/-- The visit is a login. -/
def opens (v : Visit) : Bool := v.device?.isSome

/-- The visit is the end of a stream. -/
def closes : Visit → Bool
  | endStream .. => true
  | register .. | login .. => false

/-- Whether a visit succeeds, and the provider after it. -/
def run : Visit → Provider → Bool × Provider
  | register identity secret, p => (true, p.register identity secret)
  | login identity secret device madeUp token, p =>
    let r := p.login identity secret (device.getD madeUp) token
    (r.1.isOk, r.2)
  | endStream identity token, p => p.endStream identity token

/-- The visits since the last registration, after one more. -/
def upon : Visit → List Visit → List Visit
  | register .., _ => []
  | login identity secret device madeUp token, visits =>
    login identity secret device madeUp token :: visits
  | endStream identity token, visits => endStream identity token :: visits

/-- The visits of an account that succeeded since it was last registered, latest first. -/
def since (identity : String) : List (Visit × Bool) → List Visit
  | [] => []
  | (v, succeeded) :: log =>
    if v.identity = identity ∧ succeeded = true then v.upon (since identity log)
    else since identity log

end Visit

/-- The providers that visits lead to from one without accounts, with every visit and whether it
succeeded, latest first. -/
inductive Visited (start : Provider) : Provider → List (Visit × Bool) → Prop
  | start (empty : start.accounts = .empty) : Visited start start []
  | next {p : Provider} {log : List (Visit × Bool)} (v : Visit) : Visited start p log →
      Visited start (v.run p).2 ((v, (v.run p).1) :: log)

/-- What visits lead to. -/
def Provider.after (start : Provider) (visits : List Visit) : Provider × List (Visit × Bool) :=
  visits.foldl (fun r v => ((v.run r.1).2, (v, (v.run r.1).1) :: r.2)) (start, [])

theorem visited_after {start : Provider} (empty : start.accounts = .empty) (visits : List Visit) :
    Visited start (start.after visits).1 (start.after visits).2 := by
  have play : ∀ r : Provider × List (Visit × Bool), Visited start r.1 r.2 →
      let t := visits.foldl (fun r v => ((v.run r.1).2, (v, (v.run r.1).1) :: r.2)) r
      Visited start t.1 t.2 := by
    induction visits with
    | nil => exact fun r h => h
    | cons v rest ih => exact fun r h => ih _ (h.next v)
  exact play _ (.start empty)

/-- An account is what some visits since its registration made of it, under a cap and a limit. -/
structure Account.Tracks (a : Account) (cap : Nat) (limit : Option Nat) (visits : List Visit) :
    Prop where
  capped : a.streams.length ≤ cap
  balanced : a.streams.length + visits.countP Visit.closes = visits.countP Visit.opens
  devices : a.devices = (visits.filterMap Visit.device?).reverse
  limited : ∀ n, limit = some n → Account.distinct a.recent ≤ n

/-- The provider keeps its cap and its limit, and every account is what its visits made of it. -/
structure Provider.Tracks (start p : Provider) (log : List (Visit × Bool)) : Prop where
  cap : p.maxStreams = start.maxStreams
  limit : p.deviceLimit = start.deviceLimit
  known : ∀ {identity a}, p.accounts.find? identity = some a →
    a.Tracks start.maxStreams start.deviceLimit (Visit.since identity log)
  unknown : ∀ {identity}, p.accounts.find? identity = none → Visit.since identity log = []

/-! ## What a visit keeps -/

section Steps

variable {start p : Provider} {log : List (Visit × Bool)}

/-- A visit that fails is not remembered. -/
theorem Provider.Tracks.failed (h : start.Tracks p log) (v : Visit) :
    start.Tracks p ((v, false) :: log) where
  cap := h.cap
  limit := h.limit
  known {identity a} found := by
    rw [Visit.since, if_neg (by simp)]
    exact h.known found
  unknown {identity} absent := by
    rw [Visit.since, if_neg (by simp)]
    exact h.unknown absent

/-- A visit that succeeds makes something of the account that it is about, and of no other. -/
theorem Provider.Tracks.succeeded (h : start.Tracks p log) {v : Visit} {a : Account}
    (own : a.identity = v.identity)
    (tracks : a.Tracks start.maxStreams start.deviceLimit
      (v.upon (Visit.since v.identity log))) :
    start.Tracks { p with accounts := p.accounts.insert a } ((v, true) :: log) where
  cap := h.cap
  limit := h.limit
  known {identity b} found := by
    rw [Table.find?_insert] at found
    split at found
    · rename_i same
      obtain rfl : v.identity = identity := own.symm.trans same
      rw [← Option.some.inj found, Visit.since, if_pos ⟨rfl, rfl⟩]
      exact tracks
    · rename_i other
      rw [Visit.since, if_neg fun e => other (own.trans e.1)]
      exact h.known found
  unknown {identity} absent := by
    rw [Table.find?_insert] at absent
    split at absent
    · cases absent
    · rename_i other
      rw [Visit.since, if_neg fun e => other (own.trans e.1)]
      exact h.unknown absent

theorem Account.Tracks.opened {a : Account} {visits : List Visit} {identity secret : String}
    {device : Option String} {madeUp token : String}
    (h : a.Tracks start.maxStreams start.deviceLimit visits)
    (below : a.streams.length < start.maxStreams)
    (few : start.tooMany (device.getD madeUp :: a.recent) = false) :
    (a.opened (device.getD madeUp) token).Tracks start.maxStreams start.deviceLimit
      (.login identity secret device madeUp token :: visits) where
  capped := by
    rw [Account.opened, List.length_append]
    exact below
  balanced := by
    have before := h.balanced
    rw [Account.opened, List.length_append, List.countP_cons_of_neg (by simp [Visit.closes]),
      List.countP_cons_of_pos (by simp [Visit.opens, Visit.device?]), List.length_singleton]
    omega
  devices := by
    rw [Account.opened, h.devices, List.filterMap_cons_some (by rfl), List.reverse_cons]
  limited := Provider.tooMany_eq_false_iff.1
    (Provider.tooMany_of_subset (a.recent_opened_subset _ token) few)

theorem Account.Tracks.closed {a : Account} {visits : List Visit} {identity token : String}
    (h : a.Tracks start.maxStreams start.deviceLimit visits) (isOpen : token ∈ a.streams) :
    (a.closed token).Tracks start.maxStreams start.deviceLimit
      (.endStream identity token :: visits) where
  capped := Nat.le_trans List.length_erase_le h.capped
  balanced := by
    have before := h.balanced
    have some := List.length_pos_of_mem isOpen
    rw [Account.closed, List.length_erase_of_mem isOpen,
      List.countP_cons_of_pos (by simp [Visit.closes]),
      List.countP_cons_of_neg (by simp [Visit.opens, Visit.device?])]
    omega
  devices := by
    rw [List.filterMap_cons_none (by rfl)]
    exact h.devices
  limited := h.limited

/-- One visit. -/
theorem Provider.Tracks.step (h : start.Tracks p log) (v : Visit) :
    start.Tracks (v.run p).2 ((v, (v.run p).1) :: log) := by
  cases v with
  | register identity secret =>
    exact h.succeeded (v := .register identity secret) rfl
      ⟨Nat.zero_le _, rfl, rfl, fun _ _ => Nat.zero_le _⟩
  | login identity secret device madeUp token =>
    rcases p.login_cases identity secret (device.getD madeUp) token with
      ⟨f, refused⟩ | ⟨a, found, -, below, few, accepted⟩
    · rw [Visit.run, refused]
      exact h.failed _
    · rw [Visit.run, accepted]
      have own : a.identity = identity := Table.find?_key found
      refine h.succeeded (v := .login identity secret device madeUp token) own
        ((h.known found).opened (h.cap ▸ below) ?_)
      rwa [tooMany, ← h.limit]
  | endStream identity token =>
    rcases p.endStream_cases identity token with failed | ⟨a, found, isOpen, ended⟩
    · rw [Visit.run, failed]
      exact h.failed _
    · rw [Visit.run, ended]
      have own : a.identity = identity := Table.find?_key found
      exact h.succeeded (v := .endStream identity token) own ((h.known found).closed isOpen)

/-- **What an account holds is what its visits since the last registration made of it.** -/
theorem Visited.tracks (h : Visited start p log) : start.Tracks p log := by
  induction h with
  | start empty =>
    refine ⟨rfl, rfl, fun found => ?_, fun _ => rfl⟩
    rw [empty, Table.find?_empty] at found
    cases found
  | next v _ ih => exact ih.step v

end Steps

/-- **No account ever has more streams or devices than it may have.** Whatever cap and limit a
provider has, also a limit of zero or none, and however often and in whatever order accounts are
registered, logged in to and streams ended: an account has at most as many streams open as the cap
allows, and exactly as many as there were successful logins less successful ends since it was last
registered. The last logins of an account come from no more distinct devices than the limit allows,
so none is taken for shared, and a login with the right secret, below the cap and from one of these
devices succeeds. A login that is refused and an end that fails change nothing. -/
theorem visits_keep_limits {start p : Provider} {log : List (Visit × Bool)}
    (h : Visited start p log) (identity : String) :
    (p.openStreams identity ≤ start.maxStreams ∧
      p.openStreams identity + (Visit.since identity log).countP Visit.closes =
        (Visit.since identity log).countP Visit.opens) ∧
    (∀ a, p.accounts.find? identity = some a →
      a.devices = ((Visit.since identity log).filterMap Visit.device?).reverse ∧
      (∀ n, start.deviceLimit = some n → Account.distinct a.recent ≤ n) ∧
      ∀ device ∈ a.recent, ∀ token, a.streams.length < start.maxStreams →
        (p.login identity a.secret device token).1 = .ok token) ∧
    p.flagged identity = false ∧
    (∀ secret device token f, (p.login identity secret device token).1 = .error f →
      (p.login identity secret device token).2 = p) ∧
    ∀ token, (p.endStream identity token).1 = false → (p.endStream identity token).2 = p := by
  have tracks := h.tracks
  have calm : ∀ {a}, p.accounts.find? identity = some a → p.tooMany a.recent = false :=
    fun found => Provider.tooMany_eq_false_iff.2 fun n hn =>
      (tracks.known found).limited n (tracks.limit ▸ hn)
  refine ⟨?_, fun a found => ?_, ?_, fun _ _ _ _ => Provider.login_error,
    fun _ => Provider.endStream_eq_false⟩
  · unfold Provider.openStreams
    cases found : p.accounts.find? identity with
    | none => rw [tracks.unknown found]; exact ⟨Nat.zero_le _, rfl⟩
    | some a => exact ⟨(tracks.known found).capped, (tracks.known found).balanced⟩
  · refine ⟨(tracks.known found).devices, (tracks.known found).limited,
      fun device recent token below => ?_⟩
    have few : p.tooMany (device :: a.recent) = false :=
      Provider.tooMany_of_subset (List.cons_subset.2 ⟨recent, List.Subset.refl _⟩) (calm found)
    unfold Provider.login
    rw [found]
    dsimp only
    rw [if_neg (not_not.2 rfl), if_neg (Nat.not_le.2 (tracks.cap ▸ below)), if_neg (by simp [few])]
  · unfold Provider.flagged
    cases found : p.accounts.find? identity with
    | none => rfl
    | some a => exact calm found

/-- An account for two devices is used from the television once, then twenty times from the phone.
The television is forgotten by then, so a made-up device is let in; with the stream ended, a third
one within the window is not. -/
theorem visits_keep_limits_deviceForgotten :
    let start : Provider :=
      { id := "films", name := "Films", maxStreams := 1, deviceLimit := some 2 }
    let evening (device : String) : List Visit :=
      [.login "pool" "pass" (some device) "" "stream", .endStream "pool" "stream"]
    let r := start.after (.register "pool" "pass" :: evening "tv" ++
      (List.replicate 20 (evening "phone")).flatten ++
      [.login "pool" "pass" none "device-1000" "first", .login "pool" "pass" (some "phone") "" "no",
       .endStream "pool" "first", .login "pool" "pass" (some "tablet") "" "no"])
    let log := Visit.since "pool" r.2
    (r.2.map Prod.snd).take 4 = [false, true, false, true] ∧ log.countP Visit.opens = 22 ∧
      (r.1.openStreams "pool" ≤ 1 ∧
        r.1.openStreams "pool" + log.countP Visit.closes = log.countP Visit.opens) ∧
      r.1.flagged "pool" = false := by
  intro start evening r log
  have kept := visits_keep_limits (visited_after rfl _ : Visited start r.1 r.2) "pool"
  exact ⟨by decide +kernel, by decide +kernel, kept.1, kept.2.2.1⟩

end SlotBroker
