import PortalSearch.Text.Basic
import PortalSearch.Text.CaseTable
import PortalSearch.Text.Ranges

/-!
# Lower case

The lower case of a text over the whole character set. All characters but two are
lowered one by one through `lowerCaseRuns`:

* the dotted capital I becomes two characters, an i and a combining dot;
* a capital sigma becomes the final form at the end of a word, that is when a letter
  stands before it and none behind it, characters that do not count as neighbours
  (`caseIgnorableRanges`) being passed over on both sides; else it becomes the common form.
-/

namespace PortalSearch.Text

/-- Whether a character is a letter with case. -/
def isCased (c : Char) : Bool := inRanges casedRanges c.toNat

/-- Whether a character is passed over in the search for a neighbouring letter. -/
def isCaseIgnorable (c : Char) : Bool := inRanges caseIgnorableRanges c.toNat

/-- The lower-case partner of a character, or the character itself if it has none. -/
def lowerChar (c : Char) : Char :=
  let n := c.toNat
  match lowerCaseRuns.find? fun r => r.1 ≤ n && n ≤ r.2.1 && (n - r.1) % r.2.2.1 == 0 with
  | some r => Char.ofNat ((n : Int) + r.2.2.2).toNat
  | none => c

/-- Whether the next character that counts as a neighbour is a letter. -/
def nextIsLetter (text : Text) : Bool :=
  match text.dropWhile isCaseIgnorable with
  | [] => false
  | c :: _ => isCased c

/-- Lowers a text, `before` being what stands in front of it, nearest character first. -/
def lowerAfter (before : Text) : Text → Text
  | [] => []
  | c :: rest =>
    (if c = '\u0130' then ['i', '\u0307']
      else if c = '\u03A3' then
        if nextIsLetter before && !nextIsLetter rest then ['\u03C2'] else ['\u03C3']
      else [lowerChar c]) ++ lowerAfter (c :: before) rest

/-- The lower case of a text. -/
def lower (text : Text) : Text := lowerAfter [] text

end PortalSearch.Text
