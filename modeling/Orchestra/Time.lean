import Orchestra.Number.Binary64

/-!
# Orchestra.Time — ticks, and what they are in milliseconds

A tick is 1/64 s, that is 125/8 ms.  Time stands for the monotonic clock and, a fixed number of seconds later, for the
calendar.
-/

namespace Orchestra

/-- A count of ticks since the start. -/
abbrev Tick := Nat

namespace Time

/-- The calendar at tick zero, in seconds. -/
def epoch : Int := 1000

def ticksPerSecond : Int := 64

/-- Whole milliseconds of a duration, the rest cut off. -/
def wholeMillis (ticks : Nat) : Nat := ticks * 125 / 8

/-- A duration in milliseconds as a binary number. -/
def millis (ticks : Nat) : Binary64 := Binary64.ofRatio false (ticks * 125) 8

/-- The mean of durations that add up to `ticks`; zero for no durations. -/
def meanMillis (ticks count : Nat) : Binary64 := Binary64.ofRatio false (ticks * 125) (8 * max count 1)

/-- Whole milliseconds on the calendar; the clock may stand before the start. -/
def calendarMillis (tick : Int) : Int := Int.tdiv ((epoch * ticksPerSecond + tick) * 125) 8

end Time

end Orchestra
