import AdmissionControl.Throttle

/-!
# Parts of a throttle

A `Part` leads from a compound to one of its halves, or from a throttle that might have been left
out to the one inside. Along a list of parts, `Throttle.part?` finds a part of a part, and
`Throttle.withPart` puts another throttle in its place.
-/

namespace AdmissionControl

/-- A step from a throttle to one of its parts. -/
inductive Part
  /-- To the peak half of a compound. -/
  | peak
  /-- To the sustained half of a compound. -/
  | sustained
  /-- To the throttle that might have been left out. -/
  | inner
  /-- By a name under which no throttle has a part. -/
  | unknown (name : String)
deriving DecidableEq, Repr

/-- The step of a name. -/
def Part.ofName : String → Part
  | "peak" => .peak
  | "sustained" => .sustained
  | "inner" => .inner
  | name => .unknown name

namespace Throttle

/-- The part that a path leads to, if there is one. -/
def part? : List Part → Throttle → Option Throttle
  | [], t => some t
  | .peak :: path, compound p _ => p.part? path
  | .sustained :: path, compound _ s => s.part? path
  | .inner :: path, present t => t.part? path
  | _ :: _, _ => none

/-- The throttle with another one in place of the part that a path leads to. -/
def withPart : List Part → Throttle → Throttle → Throttle
  | [], _, new => new
  | .peak :: path, compound p s, new => compound (p.withPart path new) s
  | .sustained :: path, compound p s, new => compound p (s.withPart path new)
  | .inner :: path, present t, new => present (t.withPart path new)
  | _ :: _, t, _ => t

end Throttle

end AdmissionControl
