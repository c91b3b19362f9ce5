import PortalSearch.Proofs.Search.GroupContent

/-!
# Identifiers in addresses

The addresses of users and groups end in an identifier, as one segment. What the segment looks like
is told by a grammar of its own (`IsSegment`): characters that stand for themselves, and bytes by a
percent sign and two upper-case digits. A percent sign never stands for itself, so reading a segment
character by character gives the bytes back that it was written for (`bytes?_encode`), and these are
those of the identifier. So no two identifiers share an address.

Main result: `address_holds_identifier`.
-/

namespace PortalSearch

namespace Url

variable {c : Char} {s t : Text}

/-! ## Segments -/

/-- The marks that stand for themselves in a segment. -/
def segmentMarks : List Char := ['!', '\'', '(', ')', '*', '-', '.', '_', '~']

/-- The digits behind a percent sign. -/
def segmentDigits : List Char :=
  ['0', '1', '2', '3', '4', '5', '6', '7', '8', '9', 'A', 'B', 'C', 'D', 'E', 'F']

/-- Whether a text is a segment in encoded form. -/
inductive IsSegment : Text → Prop where
  /-- nothing -/
  | nil : IsSegment []
  /-- a letter or a decimal digit -/
  | alphanumeric {c : Char} {t : Text} (hc : c.isAlphanum = true) (h : IsSegment t) :
    IsSegment (c :: t)
  /-- a mark -/
  | mark {c : Char} {t : Text} (hc : c ∈ segmentMarks) (h : IsSegment t) : IsSegment (c :: t)
  /-- a byte -/
  | byte {a b : Char} {t : Text} (ha : a ∈ segmentDigits) (hb : b ∈ segmentDigits)
    (h : IsSegment t) : IsSegment ('%' :: a :: b :: t)

theorem upperHexDigit_mem {n : Nat} (h : n < 16) : Text.upperHexDigit n ∈ segmentDigits := by
  have hall : ∀ m ∈ List.range 16, Text.upperHexDigit m ∈ segmentDigits := by decide
  exact hall n (List.mem_range.mpr h)

theorem isSegment_escapeByte (b : UInt8) (h : IsSegment t) : IsSegment (escapeByte b ++ t) := by
  have hhigh : b.toNat / 16 < 16 := Nat.div_lt_of_lt_mul b.toNat_lt
  have hlow : b.toNat % 16 < 16 := Nat.mod_lt _ (by decide)
  exact .byte (upperHexDigit_mem hhigh) (upperHexDigit_mem hlow) h

theorem isSegment_escapeBytes (bs : List UInt8) (h : IsSegment t) :
    IsSegment (bs.flatMap escapeByte ++ t) := by
  induction bs with
  | nil => exact h
  | cons b bs ih =>
    rw [List.flatMap_cons, List.append_assoc]
    exact isSegment_escapeByte b ih

theorem isSegment_encode (t : Text) : IsSegment (encode t) := by
  induction t with
  | nil => exact .nil
  | cons c t ih =>
    rw [encode, List.flatMap_cons, ← encode, encodeChar]
    split
    · next hc =>
      rcases Bool.or_eq_true_iff.mp hc with hc | hc
      · exact .alphanumeric hc ih
      · exact .mark (List.contains_iff_mem.mp hc) ih
    · exact isSegment_escapeBytes _ ih

/-! ## Reading a segment back -/

theorem bytes?_escapeByte (b : UInt8) (t : Text) :
    bytes? (escapeByte b ++ t) = (bytes? t).map (b :: ·) := by
  have hhigh : b.toNat / 16 < 16 := Nat.div_lt_of_lt_mul b.toNat_lt
  have hlow : b.toNat % 16 < 16 := Nat.mod_lt _ (by decide)
  change bytes? ('%' :: Text.upperHexDigit (b.toNat / 16) :: Text.upperHexDigit (b.toNat % 16) :: t)
    = _
  rw [bytes?, Text.hexValue_upperHexDigit hhigh, Text.hexValue_upperHexDigit hlow]
  cases bytes? t with
  | none => rfl
  | some bs =>
    dsimp only
    rw [Nat.div_add_mod', UInt8.ofNat_toNat]
    rfl

theorem bytes?_escapeBytes (bs : List UInt8) (t : Text) :
    bytes? (bs.flatMap escapeByte ++ t) = (bytes? t).map (bs ++ ·) := by
  induction bs with
  | nil => simp
  | cons b bs ih =>
    rw [List.flatMap_cons, List.append_assoc, bytes?_escapeByte, ih, Option.map_map]
    rfl

/-- A character other than a percent sign stands for its own bytes. -/
theorem bytes?_cons (hc : c ≠ '%') (t : Text) :
    bytes? (c :: t) = (bytes? t).map (String.utf8EncodeChar c ++ ·) := by
  rw [bytes?, if_neg hc]
  exact fun _ _ _ h _ => hc h

theorem bytes?_encode (t : Text) :
    bytes? (encode t) = some (t.flatMap String.utf8EncodeChar) := by
  induction t with
  | nil => rfl
  | cons c t ih =>
    rw [encode, List.flatMap_cons, ← encode, encodeChar, List.flatMap_cons]
    split
    · next hc =>
      have hpercent : c ≠ '%' := by
        rintro rfl
        cases hc
      rw [List.singleton_append, bytes?_cons hpercent, ih, Option.map_some]
    · rw [bytes?_escapeBytes, ih, Option.map_some]

theorem fromUTF8?_bytes (t : Text) :
    String.fromUTF8? ⟨(t.flatMap String.utf8EncodeChar).toArray⟩ = some (String.ofList t) := by
  have hbytes : (⟨(t.flatMap String.utf8EncodeChar).toArray⟩ : ByteArray) = t.utf8Encode :=
    ByteArray.ext List.data_toByteArray.symm
  rw [hbytes, String.fromUTF8?, dif_pos ByteArray.isValidUTF8_utf8Encode]
  rfl

/-- An encoded text is read back. -/
theorem decode_encode (t : Text) : decode (encode t) = some t := by
  rw [decode, bytes?_encode, Option.bind_some, fromUTF8?_bytes, Option.map_some,
    String.toList_ofList]

theorem encode_injective (h : encode s = encode t) : s = t := by
  have hread := congrArg decode h
  rw [decode_encode, decode_encode] at hread
  exact Option.some.inj hread

theorem not_mem_encode_of_ampersand (t : Text) : '&' ∉ encode t := by
  intro hmem
  rcases mem_encode hmem with hpercent | hunreserved
  · exact absurd hpercent (by decide)
  · exact absurd hunreserved (by decide)

/-- The segment behind the last slash of an address is its last one. -/
theorem getLast?_splitOn (h : '/' ∉ s) (front : Text) :
    ((front ++ '/' :: s).splitOn '/').getLast? = some s := by
  rw [List.splitOn_append_cons_self, List.splitOn_eq_singleton h, List.getLast?_concat]

/-- Whether the last segment of an address is an identifier in encoded form. -/
structure EndsIn (segment id address : Text) : Prop where
  /-- it stands behind the last slash -/
  last : (address.splitOn '/').getLast? = some segment
  /-- it is a segment in encoded form -/
  encoded : IsSegment segment
  /-- from it the identifier is read back -/
  read : decode segment = some id
  /-- it adds no segment, no query, no fragment and no parameter -/
  plain : ∀ mark ∈ ['/', '?', '#', '&'], mark ∉ segment

theorem endsIn_encode (front id : Text) : EndsIn (encode id) id (front ++ '/' :: encode id) := by
  refine ⟨getLast?_splitOn (not_mem_encode_of_separator (by decide)) front, isSegment_encode id,
    decode_encode id, ?_⟩
  simp only [List.forall_mem_cons]
  refine ⟨?_, ?_, ?_, not_mem_encode_of_ampersand id, List.forall_mem_nil _⟩
  all_goals exact not_mem_encode_of_separator (by decide)

end Url

/-! ## Addresses -/

namespace Portal

variable {env : Environment} {who : Credentials} {own base id : Text}

theorem userAddress_text (hown : address env .null who = .ok own) (hid : id ≠ []) :
    userAddress env { who with username := .text id } =
      .ok (own ++ "/community/users/" ++ Url.encode id) := by
  -- the name of the user does not matter for the portal
  have hsame : address env .null { who with username := .text id } = .ok own := hown
  rw [userAddress, Search.isGiven_text hid, hsame]
  rfl

/-- **The address of a user or a group** ends in its identifier as one segment, from which the
identifier is read back, and different identifiers have different addresses. -/
theorem address_holds_identifier (env : Environment) (who : Credentials) (portal : Value)
    (hown : address env .null who = .ok own) (hbase : address env portal who = .ok base) :
    let user (id : Text) := userAddress env { who with username := .text id }
    let group (id : Text) := groupAddress env (.text id) portal who
    (∀ id : Text, id ≠ [] → ∃ segment,
        user id = .ok (own ++ "/community/users/" ++ segment) ∧
        Url.EndsIn segment id (own ++ "/community/users/" ++ segment) ∧
        group id = .ok (base ++ "/community/groups/" ++ segment) ∧
        Url.EndsIn segment id (base ++ "/community/groups/" ++ segment)) ∧
      ∀ id id' : Text, id ≠ [] → id' ≠ [] → id ≠ id' →
        user id ≠ user id' ∧ group id ≠ group id' := by
  intro user group
  have huser {id : Text} (hid : id ≠ []) :
      user id = .ok (own ++ "/community/users/" ++ Url.encode id) := userAddress_text hown hid
  have hgroup {id : Text} (hid : id ≠ []) :
      group id = .ok (base ++ "/community/groups/" ++ Url.encode id) :=
    Search.groupAddress_text hbase hid
  refine ⟨fun id hid => ⟨Url.encode id, huser hid, ?_, hgroup hid, ?_⟩, ?_⟩
  · have hfront := Url.endsIn_encode (own ++ "/community/users") id
    simpa using hfront
  · have hfront := Url.endsIn_encode (base ++ "/community/groups") id
    simpa using hfront
  · intro id id' hid hid' hne
    rw [huser hid, huser hid', hgroup hid, hgroup hid']
    refine ⟨fun heq => hne ?_, fun heq => hne ?_⟩
    · exact Url.encode_injective (List.append_cancel_left (Except.ok.inj heq))
    · exact Url.encode_injective (List.append_cancel_left (Except.ok.inj heq))

/-- A user and a group whose identifier looks like an address in encoded form: the percent signs are
encoded again, so it is not taken for the identifier that it would encode. -/
theorem address_holds_identifier_with_marks :
    let env : Environment := Environment.initial
    let who : Credentials := ⟨.text "https://h/", .null⟩
    let user (id : Text) := userAddress env { who with username := .text id }
    let id : Text := "é%2F/?&😀"
    address env .null who = .ok "https://h".toList ∧
      address env (.text "https://h/r") who = .ok "https://h/r".toList ∧ id ≠ [] ∧
      (∃ segment, user id = .ok ("https://h".toList ++ "/community/users/" ++ segment) ∧
        Url.decode segment = some id ∧ '/' ∉ segment) ∧
      user id ≠ user "é//?&😀" := by
  intro env who user id
  have hown : address env .null who = .ok "https://h".toList := rfl
  have hbase : address env (.text "https://h/r") who = .ok "https://h/r".toList := rfl
  have hid : id ≠ [] := by decide
  obtain ⟨hends, hdiffer⟩ := address_holds_identifier env who (.text "https://h/r") hown hbase
  obtain ⟨segment, huser, hsegment, -⟩ := hends id hid
  refine ⟨hown, hbase, hid, ⟨segment, huser, hsegment.read, hsegment.plain '/' (by decide)⟩, ?_⟩
  exact (hdiffer id "é//?&😀" hid (by decide) (by decide)).1

end Portal

end PortalSearch
