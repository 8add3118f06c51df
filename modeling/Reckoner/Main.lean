import Reckoner.CommandLine
import Std.Time.Zoned

/-!
# Main — the program

Takes the arguments of the command line and the local time, and prints what comes of them.
-/

open Reckoner

/-- The local time. -/
def Reckoner.currentInstant : IO Instant := do
  let t ← Std.Time.PlainDateTime.now
  return {
    year := t.date.year
    month := t.date.month.val.toNat
    day := t.date.day.val.toNat
    hour := t.time.hour.val.toNat
    minute := t.time.minute.val.toNat
    second := t.time.second.val.toNat
    nanosecond := t.time.nanosecond.val.toNat }

/-- Runs the program; a command line that is not understood is answered with the main help page on
standard error. -/
def main (arguments : List String) : IO UInt32 := do
  let exit := CommandLine.run ⟨← currentInstant⟩ arguments
  IO.print exit.output
  if exit.code = 2 then
    IO.eprintln CommandLine.mainPage
  return exit.code.toUInt32
