import Mathlib.Data.List.Basic
import PortalSearch.Text.Quoted

/-!
# Bytes between quotes

Bytes are shown between quotes, each as a character or as an escape that begins with a backslash. An
escape is not longer than what can be told from its second character, so one byte can be read off
what is shown before the next (`readByte_showByte`).

Main result: different bytes are shown differently (`quotedBytes_injective`).
-/

namespace PortalSearch.Text

/-- The character of a byte between quotes. -/
def showByte (quote c : Char) : Text :=
  if c.toNat < 0x7F then quotedChar quote c else "\\x" ++ ofHex 2 c.toNat

/-- The character that is shown first between quotes, and what is shown behind it. -/
def readByte : Text → Option (Char × Text)
  | '\\' :: 'x' :: a :: b :: rest =>
    match hexValue? a, hexValue? b with
    | some m, some n => some (Char.ofNat (m * 16 + n), rest)
    | _, _ => none
  | '\\' :: 'n' :: rest => some ('\n', rest)
  | '\\' :: 'r' :: rest => some ('\r', rest)
  | '\\' :: 't' :: rest => some ('\t', rest)
  | '\\' :: c :: rest => some (c, rest)
  | c :: rest => some (c, rest)
  | [] => none

theorem ofHex_two {n : Nat} (h : n < 256) :
    ofHex 2 n = [Nat.digitChar (n / 16), Nat.digitChar (n % 16)] := by
  have all : ∀ m ∈ List.range 256,
      ofHex 2 m = [Nat.digitChar (m / 16), Nat.digitChar (m % 16)] := by decide +kernel
  exact all n (List.mem_range.mpr h)

theorem readByte_ofHex {c : Char} (h : c.toNat < 256) (rest : Text) :
    readByte ('\\' :: 'x' :: ofHex 2 c.toNat ++ rest) = some (c, rest) := by
  have hhigh := hexValue_digitChar (show c.toNat / 16 < 16 by omega)
  have hlow := hexValue_digitChar (show c.toNat % 16 < 16 by omega)
  rw [ofHex_two h]
  simp only [List.cons_append, List.nil_append, readByte, hhigh, hlow]
  rw [Nat.div_add_mod', Char.ofNat_toNat]

theorem readByte_cons {c : Char} (hc : c ≠ '\\') (rest : Text) :
    readByte (c :: rest) = some (c, rest) := by
  rw [readByte.eq_def]
  split <;> simp_all

theorem readByte_showByte {quote c : Char} (hq : quote = '\'' ∨ quote = '"') (h : c.toNat < 256)
    (rest : Text) : readByte (showByte quote c ++ rest) = some (c, rest) := by
  unfold showByte quotedChar
  split
  · split
    · next hmarked =>
      rcases hmarked with rfl | rfl
      · rcases hq with rfl | rfl <;> rfl
      · rfl
    next hplain =>
    split
    · next hc => rw [hc]; rfl
    split
    · next hc => rw [hc]; rfl
    split
    · next hc => rw [hc]; rfl
    split
    · exact readByte_cons (not_or.mp hplain).2 rest
    · rw [numbered, if_pos h]
      exact readByte_ofHex h rest
  · exact readByte_ofHex h rest

theorem showBytes_injective {quote : Char} (hq : quote = '\'' ∨ quote = '"') {cs ds : Text}
    (hcs : ∀ c ∈ cs, c.toNat < 256) (hds : ∀ d ∈ ds, d.toNat < 256)
    (h : cs.flatMap (showByte quote) = ds.flatMap (showByte quote)) : cs = ds := by
  have hread {c : Char} {t : Text} (hc : ∀ d ∈ c :: t, d.toNat < 256) :
      readByte ((c :: t).flatMap (showByte quote)) = some (c, t.flatMap (showByte quote)) := by
    rw [List.flatMap_cons]
    exact readByte_showByte hq (hc c (List.mem_cons_self ..)) _
  induction cs generalizing ds with
  | nil =>
    cases ds with
    | nil => rfl
    | cons d ds =>
      have hd := hread hds
      rw [← h] at hd
      cases hd
  | cons c cs ih =>
    have hc := hread hcs
    cases ds with
    | nil =>
      rw [h] at hc
      cases hc
    | cons d ds =>
      rw [h, hread hds, Option.some.injEq, Prod.mk.injEq] at hc
      rw [List.forall_mem_cons] at hcs hds
      rw [hc.1, ih hcs.2 hds.2 hc.2.symm]

theorem chooseQuote_cases (t : Text) : chooseQuote t = '\'' ∨ chooseQuote t = '"' := by
  rw [chooseQuote]
  split
  · exact .inr rfl
  · exact .inl rfl

/-- The characters of bytes. -/
def byteChars (bs : List UInt8) : Text := bs.map fun b => Char.ofNat b.toNat

theorem toNat_ofByte (b : UInt8) : (Char.ofNat b.toNat).toNat = b.toNat := by
  have all : ∀ n ∈ List.range 256, (Char.ofNat n).toNat = n := by decide +kernel
  exact all _ (List.mem_range.mpr b.toNat_lt)

theorem toNat_lt_of_mem_byteChars {bs : List UInt8} {c : Char} (hc : c ∈ byteChars bs) :
    c.toNat < 256 := by
  obtain ⟨b, -, rfl⟩ := List.mem_map.mp hc
  rw [toNat_ofByte]
  exact b.toNat_lt

theorem byteChars_injective {bs cs : List UInt8} (h : byteChars bs = byteChars cs) : bs = cs := by
  refine List.map_injective_iff.mpr ?_ h
  intro b c hbc
  rw [← UInt8.toNat_inj, ← toNat_ofByte b, ← toNat_ofByte c]
  exact congrArg Char.toNat hbc

theorem quotedBytes_eq (bs : List UInt8) :
    quotedBytes bs = 'b' :: chooseQuote (byteChars bs) ::
      ((byteChars bs).flatMap (showByte (chooseQuote (byteChars bs))) ++
        [chooseQuote (byteChars bs)]) := rfl

/-- **Different bytes** are shown differently. -/
theorem quotedBytes_injective {bs cs : List UInt8} (h : quotedBytes bs = quotedBytes cs) :
    bs = cs := by
  rw [quotedBytes_eq, quotedBytes_eq, List.cons.injEq, List.cons.injEq] at h
  obtain ⟨-, hquote, hshown⟩ := h
  rw [hquote] at hshown
  exact byteChars_injective (showBytes_injective (chooseQuote_cases _)
    (fun _ => toNat_lt_of_mem_byteChars) (fun _ => toNat_lt_of_mem_byteChars)
    (List.append_cancel_right hshown))

end PortalSearch.Text
