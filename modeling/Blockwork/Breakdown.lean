/-!
# Breakdowns

Some values cannot be worked with at all: a number where a text is joined, a
text that is no numeral, an integer beyond the doubles, a zoom of zero.  These
failures are breakdowns.  The editor has no message of its own for them and
gives only their cause.
-/

namespace Blockwork

/-- The cause of a failure the editor has no message for. -/
inductive Breakdown
  /-- A value of a type the step does not take. -/
  | wrongType
  /-- A value of the right type that the step cannot read. -/
  | badValue
  /-- A number beyond the range of doubles. -/
  | overflow
  | divisionByZero
  /-- A value without the operation asked of it. -/
  | missingOperation
  /-- A walk along references that come back to where it started. -/
  | endless
deriving DecidableEq, Repr

end Blockwork
