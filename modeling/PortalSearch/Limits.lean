/-!
# Limits

A machine that runs the library stops at limits of its own: whole numbers may have only so
many digits where they are turned into text or read from it, and lists and objects may be
nested only so deeply where they are read or written. The limits are no part of the library,
and they differ from machine to machine.

Reading takes them as a parameter, since a response may hold anything and what it comes to
depends on them. Writing (`Text.ofInt`, `Value.toText`, `Json.write`) is described as if they
were lifted: what keeps within them is written in just this way, and with more than that a
machine with limits fails.
-/

namespace PortalSearch

/-- How far a machine goes. -/
structure Limits where
  /-- how many digits a whole number has at most -/
  digits : Nat
  /-- how deeply lists and objects are nested at most -/
  nesting : Nat

end PortalSearch
