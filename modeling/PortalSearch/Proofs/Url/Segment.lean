import PortalSearch.Proofs.Url.Masking
import PortalSearch.Url.Percent

/-!
# One segment of an address

An encoded text holds unreserved characters and percent signs only, so none of the characters that
take an address apart, whatever the text was: put behind a slash it is one segment. The encoding
leaves exactly the texts alone in which every character is unreserved, as it writes each other
character with at least three.
-/

namespace PortalSearch.Url

variable {c : Char} {s t : Text}

/-! ## Characters -/

theorem isUnreserved_upperHexDigit {n : Nat} (h : n < 16) :
    isUnreserved (Text.upperHexDigit n) = true := by
  have hall : ∀ m ∈ List.range 16, isUnreserved (Text.upperHexDigit m) = true := by decide
  exact hall n (List.mem_range.mpr h)

theorem mem_escapeByte {b : UInt8} (h : c ∈ escapeByte b) : c = '%' ∨ isUnreserved c = true := by
  have hhigh : b.toNat / 16 < 16 := Nat.div_lt_of_lt_mul b.toNat_lt
  have hlow : b.toNat % 16 < 16 := Nat.mod_lt _ (by decide)
  simp only [escapeByte, List.mem_cons, List.not_mem_nil, or_false] at h
  rcases h with rfl | rfl | rfl
  · exact .inl rfl
  · exact .inr (isUnreserved_upperHexDigit hhigh)
  · exact .inr (isUnreserved_upperHexDigit hlow)

theorem mem_encodeChar {x : Char} (h : c ∈ encodeChar x) : c = '%' ∨ isUnreserved c = true := by
  rw [encodeChar] at h
  split at h
  · next hx => exact .inr (List.mem_singleton.mp h ▸ hx)
  · obtain ⟨b, -, hb⟩ := List.mem_flatMap.mp h
    exact mem_escapeByte hb

/-- An encoded text holds only unreserved characters and percent signs. -/
theorem mem_encode (h : c ∈ encode t) : c = '%' ∨ isUnreserved c = true := by
  obtain ⟨x, -, hx⟩ := List.mem_flatMap.mp h
  exact mem_encodeChar hx

/-! ## Separators -/

/-- The characters that end a segment, begin a query and begin a fragment. -/
def separators : List Char := ['/', '?', '#']

theorem not_mem_encode_of_separator (h : c ∈ separators) : c ∉ encode t := by
  have hall : separators.all (fun x => x != '%' && !isUnreserved x) = true := by decide
  have hc := List.all_eq_true.mp hall c h
  intro hmem
  rcases mem_encode hmem with rfl | hunreserved
  · cases hc
  · rw [hunreserved, Bool.not_true, Bool.and_false] at hc
    cases hc

/-- Text put behind a slash goes on the segments of what is in front by its own. -/
theorem splitOn_below (base : Text) (below : List Text) :
    (base ++ below.flatMap ('/' :: ·)).splitOn '/' =
      base.splitOn '/' ++ below.flatMap (List.splitOn '/') := by
  induction below generalizing base with
  | nil => simp
  | cons t below ih =>
    rw [List.flatMap_cons, ← List.append_assoc, ih, List.splitOn_append_cons_self,
      List.append_assoc, List.flatMap_cons]

/-- An encoded text is one segment. -/
theorem splitOn_encode (t : Text) : (encode t).splitOn '/' = [encode t] :=
  List.splitOn_eq_singleton (not_mem_encode_of_separator (by decide))

/-! ## What is left alone -/

theorem length_escapeBytes (bs : List UInt8) : (bs.flatMap escapeByte).length = 3 * bs.length := by
  induction bs with
  | nil => rfl
  | cons b bs ih =>
    rw [List.flatMap_cons, List.length_append, ih, List.length_cons]
    have hlength : (escapeByte b).length = 3 := rfl
    omega

theorem length_encodeChar (h : isUnreserved c = false) :
    (encodeChar c).length = 3 * c.utf8Size := by
  rw [encodeChar, h, if_neg Bool.false_ne_true, length_escapeBytes, String.length_utf8EncodeChar]

theorem length_le_encode (t : Text) : t.length ≤ (encode t).length := by
  induction t with
  | nil => exact Nat.le_refl _
  | cons c t ih =>
    rw [encode, List.flatMap_cons, List.length_append, ← encode, List.length_cons]
    have hone : 1 ≤ (encodeChar c).length := by
      cases hc : isUnreserved c with
      | true => rw [encodeChar, hc]; exact Nat.le_refl _
      | false => rw [length_encodeChar hc]; have := c.utf8Size_pos; omega
    omega

/-- The encoding leaves a text alone exactly if all its characters are unreserved. -/
theorem encode_eq_self_iff : encode t = t ↔ ∀ c ∈ t, isUnreserved c = true := by
  induction t with
  | nil => exact iff_of_true rfl (List.forall_mem_nil _)
  | cons c t ih =>
    rw [encode, List.flatMap_cons, ← encode, List.forall_mem_cons, ← ih]
    cases hc : isUnreserved c with
    | true =>
      rw [encodeChar, hc]
      simp
    | false =>
      -- the text gets longer by the first character already
      refine iff_of_false (fun heq => ?_) (by simp)
      have hlength := congrArg List.length heq
      rw [List.length_append, length_encodeChar hc, List.length_cons] at hlength
      have hpos := c.utf8Size_pos
      have hrest := length_le_encode t
      omega

end PortalSearch.Url
