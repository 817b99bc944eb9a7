/-!
# Metrics

Counters and one histogram, and the lines in which they are exposed. A series exists from the first
time it is touched, be it by nothing at all. A registry that is not recording stays empty.

The samples of a histogram are gathered in batches: the samples since the last exposition are summed
on their own before they join the total, which is what the sum line shows.

Results:
* `value_increment`: adding to one counter adds to its value and to no other.
-/

namespace SlotBroker

/-- A counter with its labels. -/
inductive Counter where
  /-- Session requests on a service, by the state that they came back in. -/
  | requested (service outcome : String)
  /-- Sessions of a service admitted from its queue. -/
  | admitted (service : String)
  /-- Sessions of a service that ran past its limit. -/
  | expired (service : String)
  /-- Requests answered, by route and status. -/
  | answered (route status : String)
  /-- Sessions reclaimed by sweeps. -/
  | swept
  deriving Repr, DecidableEq

namespace Counter

/-- The name of the metric that a counter belongs to. -/
def name : Counter → String
  | requested .. => "broker_sessions_requested_total"
  | admitted _ => "broker_sessions_admitted_from_queue_total"
  | expired _ => "broker_sessions_expired_total"
  | answered .. => "broker_http_requests_total"
  | swept => "broker_sweep_expired_total"

/-- The labels of a counter, in the order in which they are written. -/
def labels : Counter → List (String × String)
  | requested service outcome => [("service", service), ("outcome", outcome)]
  | admitted service => [("service", service)]
  | expired service => [("service", service)]
  | answered route status => [("route", route), ("status", status)]
  | swept => []

end Counter

/-- The durations of the finished sessions of a service. -/
structure Histogram where
  /-- All samples, oldest first. -/
  samples : List Float := []
  /-- The sum of the samples of past batches. -/
  settled : Float := 0.0
  /-- The samples of the open batch, oldest first. -/
  pending : List Float := []

namespace Histogram

/-- The metric's name. -/
def name : String := "broker_session_duration_seconds"

/-- The upper bounds of the buckets in seconds, with the way they are written. -/
def bounds : List (Float × String) :=
  [(60.0, "60"), (300.0, "300"), (900.0, "900"), (1800.0, "1800"), (3600.0, "3600"),
   (7200.0, "7200"), (14400.0, "14400"), (28800.0, "28800"), (86400.0, "86400")]

/-- Takes a sample into the open batch. -/
def record (h : Histogram) (sample : Float) : Histogram :=
  { h with samples := h.samples ++ [sample], pending := h.pending ++ [sample] }

/-- The number of samples up to a bound. -/
def countUpTo (h : Histogram) (bound : Float) : Nat := h.samples.countP fun x => x ≤ bound

/-- The number of samples. -/
def count (h : Histogram) : Nat := h.samples.length

/-- The sum of the samples, the open batch summed on its own. -/
def sum (h : Histogram) : Float :=
  if h.pending.isEmpty then h.settled else h.settled + h.pending.foldl (· + ·) 0.0

/-- The histogram with its open batch closed. -/
def settle (h : Histogram) : Histogram := { h with settled := h.sum, pending := [] }

end Histogram

/-- All series touched so far, in the order in which they were. -/
structure Metrics where
  /-- Whether anything is recorded at all. -/
  recording : Bool := true
  counters : List (Counter × UInt64) := []
  durations : List (String × Histogram) := []

namespace Metrics

/-- The list with the value under `k` changed, or a new value under `k` at its end. -/
def upsert {κ ν : Type} [DecidableEq κ] (k : κ) (fresh : ν) (f : ν → ν) :
    List (κ × ν) → List (κ × ν)
  | [] => [(k, f fresh)]
  | (x, v) :: rest => if x = k then (x, f v) :: rest else (x, v) :: upsert k fresh f rest

/-- Adds to a counter. -/
def increment (m : Metrics) (c : Counter) (n : UInt64) : Metrics :=
  if m.recording then { m with counters := upsert c 0 (· + n) m.counters } else m

/-- Records how long a session of a service ran. -/
def observe (m : Metrics) (service : String) (seconds : Float) : Metrics :=
  if m.recording then
    { m with durations := upsert service {} (·.record seconds) m.durations }
  else m

/-- The value of a counter, zero if it was never touched. -/
def value (m : Metrics) (c : Counter) : UInt64 := (m.counters.lookup c).getD 0

/-- The durations recorded for a service. -/
def durationsOf (m : Metrics) (service : String) : Histogram := (m.durations.lookup service).getD {}

/-- Closes the open batch of every histogram. -/
def settle (m : Metrics) : Metrics :=
  { m with durations := m.durations.map fun d => (d.1, d.2.settle) }

theorem lookup_upsert {κ ν : Type} [DecidableEq κ] (k k' : κ) (fresh : ν) (f : ν → ν)
    (l : List (κ × ν)) :
    (upsert k fresh f l).lookup k' =
      if k' = k then some (f ((l.lookup k).getD fresh)) else l.lookup k' := by
  induction l with
  | nil => by_cases h : k' = k <;> simp [upsert, List.lookup_cons, h, beq_false_of_ne]
  | cons x rest ih =>
    obtain ⟨x, v⟩ := x
    by_cases hx : x = k
    · subst hx
      by_cases h : k' = x <;> simp [upsert, List.lookup_cons, h, beq_false_of_ne]
    · have hk : (k == x) = false := beq_false_of_ne fun e => hx e.symm
      rw [upsert, if_neg hx, List.lookup_cons, ih, List.lookup_cons, List.lookup_cons, hk]
      by_cases h : k' = x
      · subst h
        simp [hx]
      · simp [beq_false_of_ne h]

theorem value_increment {m : Metrics} (h : m.recording = true) (c c' : Counter) (n : UInt64) :
    (m.increment c n).value c' = if c' = c then m.value c + n else m.value c' := by
  simp only [increment, h, if_true, value, lookup_upsert]
  split <;> simp

/-! ## Exposition -/

/-- What stands at the end of a line. -/
inductive Figure where
  /-- A count. -/
  | count (n : Nat)
  /-- A sum of seconds. -/
  | seconds (x : Float)

/-- A line of the exposition. -/
inductive Line where
  /-- The line that states what a metric is. -/
  | kind (metric kind : String)
  /-- The line of one series. -/
  | series (metric : String) (labels : List (String × String)) (figure : Figure)

/-- A label's value as it is written, after a backslash that is still held back or not. Line ends
and quotes are escaped. A backslash is held back until it is seen what follows: with a second one it
is written as one escaped backslash, before a quote it is taken for the quote's own, and otherwise
it is escaped. -/
def escape (held : Bool) : List Char → List Char
  | [] => if held then ['\\', '\\'] else []
  | '\n' :: rest => '\\' :: 'n' :: escape held rest
  | '"' :: rest => '\\' :: '"' :: escape false rest
  | '\\' :: rest => if held then '\\' :: '\\' :: escape false rest else escape true rest
  | c :: rest => if held then '\\' :: '\\' :: c :: escape false rest else c :: escape false rest

/-- The labels of a series in curly brackets, nothing if there are none. -/
def labelText (labels : List (String × String)) : String :=
  if labels.isEmpty then ""
  else
    let one (l : String × String) := l.1 ++ "=\"" ++ String.ofList (escape false l.2.toList) ++ "\""
    "\x7b" ++ String.intercalate "," (labels.map one) ++ "\x7d"

/-- A line up to its figure. -/
def Line.head : Line → String
  | kind metric k => "# TYPE " ++ metric ++ " " ++ k
  | series metric labels _ => metric ++ labelText labels

/-- The lines of the counters: for each metric the line of its kind, then its series. -/
def counterLines (counters : List (Counter × UInt64)) : List Line :=
  (counters.map fun c => c.1.name).eraseDups.flatMap fun metric =>
    .kind metric "counter" ::
      (counters.filter fun c => c.1.name = metric).map fun c =>
        .series metric c.1.labels (.count c.2.toNat)

/-- The lines of one histogram: its buckets, its sum and its count. -/
def histogramLines (service : String) (h : Histogram) : List Line :=
  let bucket (le : String) (n : Nat) :=
    Line.series (Histogram.name ++ "_bucket") [("service", service), ("le", le)] (.count n)
  (Histogram.bounds.map fun b => bucket b.2 (h.countUpTo b.1)) ++
    [bucket "+Inf" h.count,
     .series (Histogram.name ++ "_sum") [("service", service)] (.seconds h.sum),
     .series (Histogram.name ++ "_count") [("service", service)] (.count h.count)]

/-- The whole exposition. -/
def lines (m : Metrics) : List Line :=
  counterLines m.counters ++
    if m.durations.isEmpty then []
    else .kind Histogram.name "histogram" :: m.durations.flatMap fun d => histogramLines d.1 d.2

end Metrics

end SlotBroker
