import Mathlib.Data.Int.Notation

namespace UrlPulse.Core

/-- A UTC instant, counted in `DateTime.Ticks` (100 ns). -/
abbrev DateTime := Nat

abbrev TimeSpan := Int

namespace TimeSpan

def ticksPerMillisecond : Nat := 10000
def ticksPerSecond : Nat := 1000 * ticksPerMillisecond

def fromSeconds (seconds : Nat) : Nat := seconds * ticksPerSecond
def fromMinutes (minutes : Nat) : Nat := fromSeconds (minutes * 60)
def fromHours (hours : Nat) : Nat := fromMinutes (hours * 60)
def fromDays (days : Nat) : Nat := fromHours (days * 24)

theorem fromMinutes_add (minutes more : Nat) :
    fromMinutes (minutes + more) = fromMinutes minutes + fromMinutes more := by
  simp only [fromMinutes, fromSeconds, Nat.add_mul]

theorem fromMinutes_mul (minutes times : Nat) :
    fromMinutes (times * minutes) = times * fromMinutes minutes := by
  simp only [fromMinutes, fromSeconds, Nat.mul_assoc]

theorem fromMinutes_le {minutes more : Nat} : fromMinutes minutes ≤ fromMinutes more ↔ minutes ≤ more := by
  simp only [fromMinutes, fromSeconds, Nat.mul_assoc]
  exact Nat.mul_le_mul_right_iff (by decide)

theorem fromMinutes_div (minutes each : Nat) :
    fromMinutes minutes / fromMinutes each = minutes / each := by
  simp only [fromMinutes, fromSeconds, Nat.mul_assoc]
  exact Nat.mul_div_mul_right _ _ (by decide)

end TimeSpan

/-- A row of `LatencyHistories`.  The navigation to the parent is the foreign
key `urlMonitorId`; a row the code builds has no key of its own yet. -/
structure LatencyHistory where
  id : Int := 0
  latencyMs : Nat := 0
  statusCode : Nat := 0
  errorMessage : String := ""
  checkedAt : DateTime
  region : String := ""
  urlMonitorId : Int := 0
deriving DecidableEq, Repr

/-- A row of `UrlMonitors`.  `History` is the rows that point at it. -/
structure UrlMonitor where
  id : Int := 0
  ownerId : String := ""
  url : String := ""
  checkIntervalMinutes : Int32 := 1
  isPaused : Bool := false
  timeoutMs : Int32 := 5000
  isActive : Bool := true
  createdAt : DateTime
deriving DecidableEq, Repr

structure UrlCheckResult where
  isUp : Bool
  latencyMs : Option Nat
  checkedAt : DateTime
  statusCode : Nat
deriving DecidableEq, Repr

inductive Fault where
  | argumentOutOfRange
  | dbUpdate (constraint : String)
  | dbUpdateConcurrency
deriving DecidableEq, Repr

/-- `CheckUrlAsync` as its callers see it: the world is whatever a check reads
and moves on, such as the clock and the network. -/
abbrev IUrlChecker (World : Type) :=
  String → Int32 → World → Except Fault (UrlCheckResult × World)

/-- `Char.IsWhiteSpace`: the separators of Unicode and the control spaces. -/
def isWhiteSpace (c : Char) : Bool :=
  (9 ≤ c.toNat && c.toNat ≤ 13) || c.toNat = 0x20 || c.toNat = 0x85 || c.toNat = 0xA0 ||
    c.toNat = 0x1680 || (0x2000 ≤ c.toNat && c.toNat ≤ 0x200A) || c.toNat = 0x2028 ||
    c.toNat = 0x2029 || c.toNat = 0x202F || c.toNat = 0x205F || c.toNat = 0x3000

def isNullOrWhiteSpace (text : String) : Bool :=
  text.toList.all isWhiteSpace

end UrlPulse.Core
