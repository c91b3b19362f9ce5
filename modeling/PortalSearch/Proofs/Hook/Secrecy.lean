import PortalSearch.Proofs.Text.Bytes
import PortalSearch.Proofs.Url.Masking

/-!
# What hooks keep to themselves

A hook shows the addresses of a response and of its request, and the body of the request. A token
may stand in each of them. In an address it is masked, whatever its value is: what a hook logs, and
whether it fails, does not depend on it (`alike_of_alikeAddressed`).

A body is masked only if it is a text. Bytes are shown as they are, tokens and all, and different
bytes are shown differently.

Main result on bodies: responses to requests whose bodies are equal but for the values of tokens are
logged alike exactly if the bodies are texts or equal, or if the hook does not get to show them
(`alike_of_alikeBodies_iff`).
-/

namespace PortalSearch

open Url

/-! ## Tokens in addresses -/

/-- Whether two responses are equal but for the values of tokens in the queries of the address that
answered and of the one that was asked. -/
structure Response.AlikeAddressed (r s : Response) : Prop where
  /-- the addresses that answered are -/
  address : Option.Rel AlikeAddresses r.address s.address
  /-- and so are those that were asked -/
  asked : Option.Rel AlikeAddresses r.request.address s.request.address
  /-- all the rest is equal -/
  rest : s = { r with
    address := s.address
    request := { r.request with address := s.request.address } }

/-- Whether the same was told of two responses: the same records, and the same failure if there was
one. -/
structure Handled.ToldAlike (g h : Handled) : Prop where
  /-- the same records -/
  records : g.records = h.records
  /-- the same failure, or none -/
  failure : g.failure? = h.failure?

namespace Hook

variable {r s : Response}

theorem shownAddress_alike {a b : Option Text} (h : Option.Rel AlikeAddresses a b) :
    shownAddress a = shownAddress b := by
  cases h with
  | none => rfl
  | some h => exact mask_alike h

theorem description_alike (h : r.AlikeAddressed s) : description r = description s := by
  rw [h.rest]
  unfold description
  rw [shownAddress_alike h.address, shownAddress_alike h.asked]

theorem records_alike (h : r.AlikeAddressed s) (hook : Hook) : hook.records r = hook.records s := by
  have hdescription := description_alike h
  have hstatus : s.status = r.status := by rw [h.rest]
  have hreason : s.reason = r.reason := by rw [h.rest]
  cases hook with
  | brief => rw [records, records, shownAddress_alike h.address, hstatus]
  | detailed => rw [records, records, hdescription]
  | failures => rw [records, records, hdescription, hstatus, hreason]

theorem runHooks_alike (h : r.AlikeAddressed s) (client : Client) (hooks : List Hook) :
    (client.runHooks (hooks.map run) r).ToldAlike (client.runHooks (hooks.map run) s) := by
  induction hooks with
  | nil =>
    rw [List.map_nil, client.runHooks_nil, client.runHooks_nil]
    exact ⟨rfl, rfl⟩
  | cons hook hooks ih =>
    have hrecords := records_alike h hook
    cases hr : hook.records r with
    | error e =>
      rw [runHooks_cons_of_error client hooks hr,
        runHooks_cons_of_error client hooks (hrecords.symm.trans hr)]
      exact ⟨rfl, rfl⟩
    | ok rs =>
      rw [runHooks_cons_of_ok client hooks hr,
        runHooks_cons_of_ok client hooks (hrecords.symm.trans hr)]
      exact ⟨congrArg (rs ++ ·) ih.records, ih.failure⟩

/-- **The values of tokens in addresses** make no difference to what a hook logs or fails with, nor
to what hooks in a row do, whatever client runs them. -/
theorem alike_of_alikeAddressed (h : r.AlikeAddressed s) :
    (∀ hook : Hook, hook.records r = hook.records s) ∧ ∀ (client : Client) (hooks : List Hook),
      (client.runHooks (hooks.map run) r).ToldAlike (client.runHooks (hooks.map run) s) :=
  ⟨records_alike h, runHooks_alike h⟩

/-- A colon, slashes, another question mark or a tab in a token make no difference either. -/
theorem alike_for_marks_in_token :
    let query (token : Text) : Text := "f=json&" ++ tokenLead ++ token ++ "&start=1"
    let address (token : Text) : Text :=
      "https://www.arcgis.com/search" ++ '?' :: (query token ++ "#top")
    let response (token : Text) : Response :=
      ⟨403, some "FORBIDDEN", some (address token), "{}", ⟨some "GET", some "search", .null⟩⟩
    (response "a://b/?c\t").AlikeAddressed (response "d") ∧
      (∀ hook : Hook, hook.records (response "a://b/?c\t") = hook.records (response "d")) ∧
      ∀ (client : Client) (hooks : List Hook),
        (client.runHooks (hooks.map run) (response "a://b/?c\t")).ToldAlike
          (client.runHooks (hooks.map run) (response "d")) := by
  intro query address response
  have hswap : SwapsValue '&' tokenLead (query "a://b/?c\t") (query "d") := by
    refine .swap "f=json&".toList _ _ "&start=1".toList (.inr ⟨"f=json".toList, ?_⟩) ?_ ?_
    all_goals decide
  have haddress : AlikeAddresses (address "a://b/?c\t") (address "d") :=
    .query "https://www.arcgis.com/search" _ _ "#top" (by decide) (by decide) (by decide)
      (.single hswap)
  have halike : (response "a://b/?c\t").AlikeAddressed (response "d") :=
    ⟨.some haddress, .some (.refl _), rfl⟩
  exact ⟨halike, alike_of_alikeAddressed halike⟩

end Hook

/-! ## Tokens in bodies -/

/-- How a token parameter begins in bytes. -/
def tokenLeadBytes : List UInt8 := tokenLead.map fun c => UInt8.ofNat c.toNat

/-- Whether two request bodies are texts, or bytes, and equal but for the values of tokens. -/
inductive AlikeBodies : Value → Value → Prop
  /-- texts -/
  | text (s t : Text) (h : AlikeBut '&' tokenLead s t) : AlikeBodies (.text s) (.text t)
  /-- bytes -/
  | bytes (bs cs : List UInt8) (h : AlikeBut 0x26 tokenLeadBytes bs cs) :
    AlikeBodies (.bytes bs) (.bytes cs)

/-- The same response to a request with another body. -/
def Response.withBody (r : Response) (body : Value) : Response :=
  { r with request := { r.request with body := body } }

namespace Hook

variable {r : Response} {b c : Value}

/-- Whether a hook gets to show the body of the request: it shows such responses, and the addresses
in front of the body can be shown. -/
def ShowsBody (hook : Hook) (r : Response) : Prop :=
  (hook = detailed ∨ hook = failures ∧ r.status ≠ 200 ∧ r.status ≠ 302) ∧
    ∀ a ∈ r.address.toList ++ r.request.address.toList, IsShowable a

/-- Descriptions of requests with different bodies tell the bodies apart as far as these are shown,
unless there is no description. -/
theorem description_withBody_iff :
    description (r.withBody b) = description (r.withBody c) ↔
      ((∀ a ∈ r.address.toList ++ r.request.address.toList, IsShowable a) →
        shownBody b = shownBody c) := by
  have hshown : (∃ text, description (r.withBody b) = .ok text) ↔
      ∀ a ∈ r.address.toList ++ r.request.address.toList, IsShowable a := exists_description_iff
  rw [← hshown]
  unfold description
  simp only [Response.withBody]
  cases shownAddress r.address with
  | error e => simp [bind, Except.bind]
  | ok address =>
    cases shownAddress r.request.address with
    | error e => simp [bind, Except.bind]
    | ok asked =>
      simp only [bind, Except.bind, pure, Except.pure, Except.ok.injEq, List.append_left_inj,
        List.append_right_inj]
      simp

theorem map_inj_iff {ε α β : Type} {f : α → β} (hf : Function.Injective f) {x y : Except ε α} :
    x.map f = y.map f ↔ x = y := by
  constructor
  · intro h
    cases x with
    | error e =>
      cases y with
      | error e' => exact congrArg _ (Except.error.inj h)
      | ok b => cases h
    | ok a =>
      cases y with
      | error e' => cases h
      | ok b => exact congrArg _ (hf (Except.ok.inj h))
  · exact congrArg _

/-- What the failures hook logs behind a description. -/
def hints (status : Int) (reason : Option Text) : List Record :=
  if status = 403 ∧ reason = some "FORBIDDEN".toList then [⟨.hooks, .warning, firewallHint⟩] else []

theorem records_failures (r : Response) (h : ¬ (r.status = 200 ∨ r.status = 302)) :
    failures.records r = (description r).map fun text =>
      ⟨.hooks, .warning, text⟩ :: hints r.status r.reason := if_neg h

/-- A hook tells bodies apart as far as it shows them. -/
theorem records_withBody_iff (hook : Hook) :
    hook.records (r.withBody b) = hook.records (r.withBody c) ↔
      (hook.ShowsBody r → shownBody b = shownBody c) := by
  have hinj (level : Level) (more : List Record) :
      Function.Injective fun text : Text => Record.mk .hooks level text :: more := by
    intro s t hst
    simpa using hst
  cases hook with
  | brief => simp [ShowsBody, records, Response.withBody]
  | detailed =>
    rw [records, records, map_inj_iff (hinj _ _), description_withBody_iff]
    simp [ShowsBody]
  | failures =>
    by_cases hstatus : r.status = 200 ∨ r.status = 302
    · have hnone (v : Value) : failures.records (r.withBody v) = .ok [] := if_pos hstatus
      rw [hnone, hnone]
      refine ⟨?_, fun _ => rfl⟩
      rintro - ⟨hhook | ⟨-, hno⟩, -⟩
      · cases hhook
      · exact absurd hstatus (not_or.mpr hno)
    · rw [records_failures (r.withBody b) hstatus, records_failures (r.withBody c) hstatus]
      refine (map_inj_iff (hinj _ (hints r.status r.reason))).trans ?_
      rw [description_withBody_iff]
      simp [ShowsBody, not_or.mp hstatus]

theorem shownBody_eq_iff (h : AlikeBodies b c) :
    shownBody b = shownBody c ↔ (∃ t, b = .text t) ∨ b = c := by
  cases h with
  | text s t h =>
    refine ⟨fun _ => .inl ⟨s, rfl⟩, fun _ => ?_⟩
    by_cases heq : s = t
    · rw [heq]
    · have hlead := h.lead_infix heq
      rw [shownBody, shownBody, if_pos (Text.hasPart_iff.mpr hlead.1),
        if_pos (Text.hasPart_iff.mpr hlead.2), maskParams_alike h]
  | bytes bs cs _ =>
    constructor
    · intro hshown
      right
      rw [Text.quotedBytes_injective hshown]
    · rintro (⟨t, ht⟩ | heq)
      · cases ht
      · rw [heq]

/-- **The values of tokens in bodies** make no difference to what a hook logs or fails with exactly
if the bodies are texts, or equal, or not shown. -/
theorem alike_of_alikeBodies_iff (hook : Hook) (r : Response) (h : AlikeBodies b c) :
    hook.records (r.withBody b) = hook.records (r.withBody c) ↔
      (∃ t, b = .text t) ∨ b = c ∨ ¬ hook.ShowsBody r := by
  rw [records_withBody_iff, shownBody_eq_iff h]
  by_cases hshows : hook.ShowsBody r
  · simp [hshows]
  · simp [hshows]

/-- The second parameter of a text is hidden. -/
theorem alike_for_token_in_text :
    let body (token : Text) : Value := .text ("f=json&".toList ++ tokenLead ++ token ++ [])
    let response : Response := ⟨200, some "OK", none, "{}", ⟨some "POST", none, .null⟩⟩
    AlikeBodies (body "a") (body "b") ∧
      detailed.records (response.withBody (body "a")) =
        detailed.records (response.withBody (body "b")) := by
  intro body response
  have halike : AlikeBodies (body "a") (body "b") := by
    refine .text _ _ (.single (.swap _ _ _ _ (.inr ⟨"f=json", ?_⟩) ?_ ?_)) <;> decide
  exact ⟨halike, (alike_of_alikeBodies_iff detailed response halike).mpr (.inl ⟨_, rfl⟩)⟩

/-- A token in bytes is shown. -/
theorem token_shown_in_bytes :
    let body (token : UInt8) : Value := .bytes (tokenLeadBytes ++ [token])
    let response : Response := ⟨200, some "OK", none, "{}", ⟨some "POST", none, .null⟩⟩
    AlikeBodies (body 0x61) (body 0x62) ∧
      detailed.records (response.withBody (body 0x61)) ≠
        detailed.records (response.withBody (body 0x62)) := by
  intro body response
  have hswap :
      SwapsValue 0x26 tokenLeadBytes (tokenLeadBytes ++ [0x61]) (tokenLeadBytes ++ [0x62]) :=
    .swap [] [0x61] [0x62] [] (.inl rfl) (by decide) (by decide)
  refine ⟨.bytes _ _ (.single hswap), ?_⟩
  decide +kernel

end Hook

end PortalSearch
