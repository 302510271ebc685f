/-!
# Timers

Timeouts and intervals against a clock that is moved by hand and never goes back. Moving it reports
what came due, in the order of the deadlines and then of the tokens.

* `Instant`, `Instant.limit`, `Instant.toText`: times in nanoseconds, which end at a limit;
* `TimerQueue.setTimeout`, `setInterval`, `clear`: scheduling;
* `TimerQueue.advance`: moving the clock.
-/

namespace DomHost

/-- A time or a span of time, in nanoseconds. -/
abbrev Instant := Nat

namespace Instant

/-- The end of time: as many seconds as 64 bits count, and a nanosecond less than one more. -/
def limit : Instant := 18446744073709551615999999999

/-- A time later, or the end of time. -/
def later (t span : Instant) : Instant := min (t + span) limit

/-- The span of a number of milliseconds. -/
def ofMillis (n : Nat) : Instant := n * 1000000

/-- The nanoseconds of a second. -/
def second : Nat := 1000000000

/-- Seconds and nine digits of nanoseconds. -/
def toText (t : Instant) : String :=
  toString (t / second) ++ "." ++ (toString (second + t % second)).drop 1

/-- Reads seconds and nine digits of nanoseconds. -/
def ofText? (s : String) : Option Instant :=
  match s.splitOn "." with
  | [a, b] => do some ((← a.toNat?) * second + (← b.toNat?))
  | _ => none

end Instant

/-- The number by which a timer is told apart from others. -/
structure TimerToken where
  number : UInt32
deriving DecidableEq

/-- A pending timer; one with a period is an interval. -/
structure Timer where
  token : TimerToken
  deadline : Instant
  period : Option Instant
deriving DecidableEq

/-- The pending timers and the clock. -/
structure TimerQueue where
  timers : List Timer := []
  lastToken : UInt32 := 0
  now : Instant := 0
deriving DecidableEq

namespace TimerQueue

/-- Adds a timer with the next token; a pending one with that token gives way. -/
def schedule (q : TimerQueue) (delay : Instant) (period : Option Instant) :
    TimerToken × TimerQueue :=
  let token : TimerToken := ⟨q.lastToken + 1⟩
  let timer : Timer := ⟨token, Instant.later q.now delay, period⟩
  (token,
    { q with timers := timer :: q.timers.filter (·.token != token), lastToken := q.lastToken + 1 })

/-- Comes due once, after a delay. -/
def setTimeout (q : TimerQueue) (delay : Instant) : TimerToken × TimerQueue := q.schedule delay none

/-- Comes due every period, which is a millisecond at least. -/
def setInterval (q : TimerQueue) (period : Instant) : TimerToken × TimerQueue :=
  let period := max period (Instant.ofMillis 1)
  q.schedule period (some period)

/-- Drops a timer; tells whether it was pending. -/
def clear (q : TimerQueue) (token : TimerToken) : Bool × TimerQueue :=
  (q.timers.any (·.token == token), { q with timers := q.timers.filter (·.token != token) })

/-- Is a timer pending? -/
def hasPending (q : TimerQueue) : Bool := !q.timers.isEmpty

/-- The time until the first deadline. -/
def untilNext? (q : TimerQueue) : Option Instant :=
  (q.timers.map fun t => t.deadline - q.now).min?

/-- Does a timer come before another? -/
def precedes (a b : Timer) : Bool :=
  a.deadline < b.deadline || (a.deadline == b.deadline && a.token.number ≤ b.token.number)

/-- What a timer that came due at a time turns into: an interval waits for the deadline after its last
one, or for a period from now if that is past as well. -/
def rearm (now : Instant) (t : Timer) : Option Timer :=
  t.period.map fun period =>
    let next := Instant.later t.deadline period
    { t with deadline := if next ≤ now then Instant.later now period else next }

/-- Moves the clock forward, and tells what came due. -/
def advance (q : TimerQueue) (now : Instant) : List TimerToken × TimerQueue :=
  let now := max q.now now
  let due := (q.timers.filter (·.deadline ≤ now)).mergeSort precedes
  let timers := q.timers.filterMap fun t => if t.deadline ≤ now then rearm now t else some t
  (due.map (·.token), { q with timers, now })

end TimerQueue

end DomHost
