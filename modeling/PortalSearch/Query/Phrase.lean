import PortalSearch.Text.Blank

/-!
# Phrases

How a reader finds the terms in a series: the text is cut at each blank that stands outside
of double quotes. There is always one piece more than there are cuts.
-/

namespace PortalSearch.Phrase

/-- Puts a character in front of the first piece. -/
def extend (c : Char) : List Text → List Text
  | [] => [[c]]
  | piece :: pieces => (c :: piece) :: pieces

/-- The pieces of a text, `quoted` telling whether it begins inside quotes. -/
def cut (quoted : Bool) : Text → List Text
  | [] => [[]]
  | c :: rest =>
    if Text.isBlank c && !quoted then [] :: cut quoted rest
    else extend c (cut (quoted != (c == '"')) rest)

/-- The pieces of a text. -/
def pieces (t : Text) : List Text := cut false t

end PortalSearch.Phrase
