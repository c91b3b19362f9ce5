import Mathlib.Logic.Basic
import PortalSearch.Proofs.Hook.Transparency
import PortalSearch.Proofs.Json.Reading

/-!
# What a response comes to

A response is to come to one of four outcomes, and which one it is shows in its status and its body
(`Response.ComesTo`): an error status fails with it, whatever the body; else a body that is no JSON
fails as that; else an object that reports an error fails with what it reports; else the body is the
answer. Other outcomes occur in three cases. A hook fails on an address that it cannot show; the
machine of the client gives up at one of its limits; or the error that is reported is no object, so
that there is no message to be found in it.

The body is the answer as far as it is text: a half surrogate pair that stands alone is read as the
replacement character, so bodies, and the names in a body, that differ only there are not told
apart (`Json.ofUnits`).

Main result: `comesTo_iff` says that these are the only cases, and what occurs in them.
-/

namespace PortalSearch

/-! ## Reported errors -/

/-- Whether a body is an object that reports an error: there is a value under the name `error`, and
it counts as given. -/
def Reports (body e : Value) : Prop :=
  ∃ fields, body = .object fields ∧ Value.field? "error" fields = some e ∧ e.isGiven = true

namespace Response

variable {client : Client} {r : Response} {a : Except Error Value} {body e : Value}

theorem reported?_eq_some_iff : reported? body = some e ↔ Reports body e := by
  rw [reported?.eq_def, Reports]
  split
  · next fields =>
    rw [Option.filter_eq_some_iff]
    constructor
    · rintro ⟨herror, hgiven⟩
      exact ⟨fields, rfl, herror, hgiven⟩
    · rintro ⟨fields', hfields, herror, hgiven⟩
      obtain rfl := Value.object.inj hfields
      exact ⟨herror, hgiven⟩
  · next hobject =>
    refine iff_of_false nofun ?_
    rintro ⟨fields, rfl, -⟩
    exact hobject fields rfl

/-! ## Outcomes -/

/-- Whether the status is that of an error. -/
def FailsByStatus (r : Response) : Prop := 400 ≤ r.status ∧ r.status ≤ 599

theorem exists_statusMessage (client : Client) (h : r.FailsByStatus) :
    ∃ message, client.statusMessage? r = some message :=
  Option.isSome_iff_exists.mp ((client.isSome_statusMessage? r).mpr h)

theorem statusMessage?_eq_none (client : Client) (h : ¬ r.FailsByStatus) :
    client.statusMessage? r = none := by
  rw [Option.eq_none_iff_forall_ne_some]
  intro message hmessage
  exact h ((client.isSome_statusMessage? r).mp (by rw [hmessage]; rfl))

/-- What a response is to come to. -/
structure ComesTo (r : Response) (a : Except Error Value) : Prop where
  /-- it fails with an error status, whatever the body -/
  status : (∃ message, a = .error (.http message (.int r.status))) ↔ r.FailsByStatus
  /-- else it fails if the body is no JSON -/
  notJson : a = .error .bodyNotJson ↔ ¬ r.FailsByStatus ∧ ¬ Json.IsJson r.body
  /-- else it fails if the body reports an error -/
  reported : (∃ message code details, a = .error (.portal message code details)) ↔
    ¬ r.FailsByStatus ∧ ∃ body, Json.IsJsonOf r.body body ∧ ∃ e, Reports body e
  /-- else the body is the answer, as far as it is text -/
  answered : ∀ body, a = .ok body ↔
    ¬ r.FailsByStatus ∧ Json.IsJsonOf r.body body ∧ ¬ ∃ e, Reports body e

/-- There are no other outcomes. -/
theorem ComesTo.exhaustive (h : r.ComesTo a) :
    (∃ message, a = .error (.http message (.int r.status))) ∨ a = .error .bodyNotJson ∨
      (∃ message code details, a = .error (.portal message code details)) ∨
      ∃ body, a = .ok body := by
  by_cases hstatus : r.FailsByStatus
  · exact .inl (h.status.mpr hstatus)
  · by_cases hjson : Json.IsJson r.body
    · obtain ⟨body, hbody⟩ := hjson
      by_cases hreports : ∃ e, Reports body e
      · exact .inr (.inr (.inl (h.reported.mpr ⟨hstatus, body, hbody, hreports⟩)))
      · exact .inr (.inr (.inr ⟨body, (h.answered body).mpr ⟨hstatus, hbody, hreports⟩⟩))
    · exact .inr (.inl (h.notJson.mpr ⟨hstatus, hjson⟩))

/-- What fails otherwise is none of the outcomes. -/
theorem ComesTo.ne_error {e : Error} (h : r.ComesTo (.error e)) :
    (∀ cause, e ≠ .url cause) ∧ (∀ m n, e ≠ .numberTooLong m n) ∧ e ≠ .bodyTooDeep ∧
      e ≠ .errorNotObject := by
  rcases h.exhaustive with ⟨_, he⟩ | he | ⟨_, _, _, he⟩ | ⟨_, he⟩
  · obtain rfl := Except.error.inj he
    exact ⟨nofun, nofun, nofun, nofun⟩
  · obtain rfl := Except.error.inj he
    exact ⟨nofun, nofun, nofun, nofun⟩
  · obtain rfl := Except.error.inj he
    exact ⟨nofun, nofun, nofun, nofun⟩
  · cases he

/-- Whether every error that the body reports is an object. -/
def ReportsObjects (r : Response) : Prop :=
  ∀ body e, Json.IsJsonOf r.body body → Reports body e → ∃ fields, e = .object fields

/-! ## What the answer is -/

theorem answer_of_failsByStatus (client : Client) (h : r.FailsByStatus) :
    ∃ message, r.answer client = .error (.http (.text message) (.int r.status)) := by
  obtain ⟨message, hmessage⟩ := exists_statusMessage client h
  exact ⟨message, by rw [answer, hmessage]⟩

theorem answer_of_read (hstatus : ¬ r.FailsByStatus)
    (h : Json.read client.limits r.body = .ok body) : r.answer client = answerOf body := by
  rw [answer, statusMessage?_eq_none client hstatus, h]

theorem answer_of_malformed (hstatus : ¬ r.FailsByStatus)
    (h : Json.read client.limits r.body = .error .malformed) :
    r.answer client = .error .bodyNotJson := by
  rw [answer, statusMessage?_eq_none client hstatus, h]

/-- Where the reader gives up, the call fails with the limit. -/
theorem answer_of_givesUp (hstatus : ¬ r.FailsByStatus) (h : Json.GivesUp client.limits r.body) :
    (∃ n, r.answer client = .error (.numberTooLong client.limits.digits n)) ∨
      r.answer client = .error .bodyTooDeep := by
  obtain ⟨e, hread, he⟩ := h
  rw [answer, statusMessage?_eq_none client hstatus, hread]
  cases e with
  | malformed => exact absurd rfl he
  | tooManyDigits n => exact .inl ⟨n, rfl⟩
  | tooDeep => exact .inr rfl

/-! ## When it comes to what it should -/

theorem comesTo_of_failsByStatus (client : Client) (h : r.FailsByStatus) :
    r.ComesTo (r.answer client) := by
  obtain ⟨message, hanswer⟩ := answer_of_failsByStatus client h
  rw [hanswer]
  refine ⟨iff_of_true ⟨_, rfl⟩ h, ?_, ?_, fun body => ?_⟩
  · refine iff_of_false (fun ha => ?_) fun hjson => hjson.1 h
    cases ha
  · refine iff_of_false ?_ fun hbody => hbody.1 h
    rintro ⟨message, code, details, ha⟩
    cases ha
  · refine iff_of_false (fun ha => ?_) fun hbody => hbody.1 h
    cases ha

theorem comesTo_of_malformed (hstatus : ¬ r.FailsByStatus)
    (h : Json.read client.limits r.body = .error .malformed) : r.ComesTo (r.answer client) := by
  have hjson : ¬ Json.IsJson r.body := Json.not_isJson_of_malformed h
  rw [answer_of_malformed hstatus h]
  refine ⟨iff_of_false nofun hstatus, iff_of_true rfl ⟨hstatus, hjson⟩, ?_, fun body => ?_⟩
  · exact iff_of_false nofun fun ⟨_, body, hbody, _⟩ => hjson ⟨body, hbody⟩
  · exact iff_of_false nofun fun ⟨_, hbody, _⟩ => hjson ⟨body, hbody⟩

theorem comesTo_ok (hstatus : ¬ r.FailsByStatus) (h : Json.read client.limits r.body = .ok body)
    (hnone : ¬ ∃ e, Reports body e) : r.ComesTo (.ok body) := by
  have hbody : Json.IsJsonOf r.body body := Json.isJsonOf_of_read h
  refine ⟨iff_of_false nofun hstatus, ?_, ?_, fun other => ?_⟩
  · exact iff_of_false nofun fun hjson => hjson.2 ⟨body, hbody⟩
  · refine iff_of_false nofun ?_
    rintro ⟨-, other, hother, hreports⟩
    exact hnone (hother.unique hbody ▸ hreports)
  · constructor
    · rintro hok
      obtain rfl := Except.ok.inj hok
      exact ⟨hstatus, hbody, hnone⟩
    · rintro ⟨-, hother, -⟩
      rw [hother.unique hbody]

theorem comesTo_portal (hstatus : ¬ r.FailsByStatus)
    (h : Json.read client.limits r.body = .ok body)
    (hreports : ∃ e, Reports body e) (message code details : Value) :
    r.ComesTo (.error (.portal message code details)) := by
  have hbody : Json.IsJsonOf r.body body := Json.isJsonOf_of_read h
  refine ⟨iff_of_false nofun hstatus, ?_, ?_, fun other => ?_⟩
  · exact iff_of_false nofun fun hjson => hjson.2 ⟨body, hbody⟩
  · exact iff_of_true ⟨_, _, _, rfl⟩ ⟨hstatus, body, hbody, hreports⟩
  · refine iff_of_false nofun ?_
    rintro ⟨-, hother, hnone⟩
    exact hnone (hother.unique hbody ▸ hreports)

theorem answer_of_reports {fields : List (Text × Value)} (hstatus : ¬ r.FailsByStatus)
    (h : Json.read client.limits r.body = .ok body) (hreports : Reports body (.object fields)) :
    r.answer client = .error (errorOf (.object fields)) := by
  rw [answer_of_read hstatus h, answerOf, reported?_eq_some_iff.mpr hreports]

/-- Where the body is read and reports an error that is no object, that is the failure. -/
theorem answer_of_not_object (hstatus : ¬ r.FailsByStatus)
    (h : Json.read client.limits r.body = .ok body) (hreports : Reports body e)
    (hobject : ¬ ∃ fields, e = .object fields) : r.answer client = .error .errorNotObject := by
  rw [answer_of_read hstatus h, answerOf, reported?_eq_some_iff.mpr hreports]
  dsimp only
  rw [errorOf.eq_def]
  split
  · next fields => exact absurd ⟨fields, rfl⟩ hobject
  · rfl

theorem comesTo_of_reportsObjects (hstatus : ¬ r.FailsByStatus)
    (h : Json.read client.limits r.body = .ok body) (hobjects : r.ReportsObjects) :
    r.ComesTo (r.answer client) := by
  by_cases hreports : ∃ e, Reports body e
  · obtain ⟨e, he⟩ := hreports
    obtain ⟨fields, rfl⟩ := hobjects body e (Json.isJsonOf_of_read h) he
    rw [answer_of_reports hstatus h he]
    exact comesTo_portal hstatus h ⟨_, he⟩ _ _ _
  · have hnone : reported? body = none :=
      Option.eq_none_iff_forall_ne_some.mpr fun e he =>
        hreports ⟨e, reported?_eq_some_iff.mp he⟩
    rw [answer_of_read hstatus h, answerOf, hnone]
    exact comesTo_ok hstatus h hreports

/-- Where the reader does not give up on a body that reports an error which is no object, that is
the failure. -/
theorem answer_of_not_reportsObjects (hstatus : ¬ r.FailsByStatus)
    (hread : ¬ Json.GivesUp client.limits r.body) (h : ¬ r.ReportsObjects) :
    r.answer client = .error .errorNotObject := by
  simp only [ReportsObjects, not_forall] at h
  obtain ⟨body, e, hbody, hreports, hobject⟩ := h
  exact answer_of_not_object hstatus (hbody.read_eq hread) hreports hobject

/-- A response comes to one of the outcomes exactly if it has an error status, or the reader of JSON
does not give up and every error that the body reports is an object. -/
theorem comesTo_answer_iff (client : Client) (r : Response) : r.ComesTo (r.answer client) ↔
    r.FailsByStatus ∨ ¬ Json.GivesUp client.limits r.body ∧ r.ReportsObjects := by
  by_cases hstatus : r.FailsByStatus
  · exact iff_of_true (comesTo_of_failsByStatus client hstatus) (.inl hstatus)
  rw [or_iff_right hstatus]
  constructor
  · intro h
    have hread : ¬ Json.GivesUp client.limits r.body := by
      intro hgives
      rcases answer_of_givesUp hstatus hgives with ⟨n, ha⟩ | ha
      · exact (ha ▸ h).ne_error.2.1 _ n rfl
      · exact (ha ▸ h).ne_error.2.2.1 rfl
    refine ⟨hread, Classical.byContradiction fun hobjects => ?_⟩
    have ha := answer_of_not_reportsObjects hstatus hread hobjects
    exact (ha ▸ h).ne_error.2.2.2 rfl
  · rintro ⟨hread, hobjects⟩
    cases h : Json.read client.limits r.body with
    | ok body => exact comesTo_of_reportsObjects hstatus h hobjects
    | error e =>
      by_cases he : e = .malformed
      · exact comesTo_of_malformed hstatus (he ▸ h)
      · exact absurd ⟨e, h, he⟩ hread

end Response

/-! ## Connections -/

namespace Connection

/-- **What a call comes to**, whatever client it goes through. It is one of the outcomes exactly if
all addresses that the hooks show can be shown and the response has an error status, or else the
reader of JSON does not give up and every error that the body reports is an object. On JSON the
reader gives up exactly beyond the limits of the client's machine. In the other cases the call comes
to the failure of a hook, else to that of the reader, else to the error being no object. -/
theorem comesTo_iff (c : Connection) (client : Client) (network : Request → Response)
    (method : Method) (address : Text) (params : Params) :
    let response := network (c.prepare ⟨method, address, params⟩)
    let answer := (c.ask client network method address params).answer
    let showable := ∀ a ∈ c.hooks.flatMap (Hook.addresses · response), Url.IsShowable a
    let givesUp := Json.GivesUp client.limits response.body
    (response.ComesTo answer ↔ showable ∧
      (response.FailsByStatus ∨ ¬ givesUp ∧ response.ReportsObjects)) ∧
    (Json.IsJson response.body → (givesUp ↔
      ¬ ∃ body, Json.Denotes client.limits.digits client.limits.nesting response.body body)) ∧
    (¬ showable → ∃ e, answer = .error (.url e)) ∧
    (showable → ¬ response.FailsByStatus → givesUp →
      (∃ n, answer = .error (.numberTooLong client.limits.digits n)) ∨
        answer = .error .bodyTooDeep) ∧
    (showable → ¬ response.FailsByStatus → ¬ givesUp →
      (¬ response.ReportsObjects → answer = .error .errorNotObject) ∧
      ∀ body fields, Json.IsJsonOf response.body body → Reports body (.object fields) →
        answer = .error (.portal
          ((Value.field? "message" fields).getD (.text "Unknown portal error."))
          ((Value.field? "code" fields).getD .null)
          (((Value.field? "details" fields).getD .null).orElse (.list [])))) := by
  intro response answer showable givesUp
  rcases Hook.result_runHooks client c.hooks response with ⟨hresult, hshown⟩ | ⟨⟨e, hresult⟩, hnot⟩
  · have hanswer : answer = response.answer client := ask_answer_of_ok hresult
    rw [hanswer]
    refine ⟨?_, Json.givesUp_iff, fun h => absurd hshown h, ?_, ?_⟩
    · rw [Response.comesTo_answer_iff, and_iff_right hshown]
    · exact fun _ hstatus => Response.answer_of_givesUp hstatus
    · intro _ hstatus hread
      refine ⟨Response.answer_of_not_reportsObjects hstatus hread, fun body fields hbody => ?_⟩
      exact Response.answer_of_reports hstatus (hbody.read_eq hread)
  · have hanswer : answer = .error (.url e) := ask_answer_of_error hresult
    rw [hanswer]
    refine ⟨iff_of_false (fun h => h.ne_error.1 e rfl) fun h => hnot h.1, Json.givesUp_iff,
      fun _ => ⟨e, rfl⟩, ?_⟩
    exact ⟨fun h => absurd h hnot, fun h => absurd h hnot⟩

/-- A body that reports an error by a text alone comes to none of the outcomes. -/
theorem reported_text_escapes :
    let response : Response :=
      ⟨200, some "OK", none, "\x7b\"error\": \"x\"\x7d", ⟨none, none, .null⟩⟩
    let c : Connection := ⟨Portal.standard, none, []⟩
    Json.IsJsonOf response.body (.object [("error", .text "x")]) ∧
      Reports (.object [("error", .text "x")]) (.text "x") ∧
      (c.get .standard (fun _ => response) "search" []).answer = .error .errorNotObject ∧
      ¬ response.ComesTo (c.get .standard (fun _ => response) "search" []).answer := by
  intro response c
  have hname : Json.Quotes "error\": \"x\"\x7d" [101, 114, 114, 111, 114] ": \"x\"\x7d" :=
    Json.quotes_of_readUnits rfl
  have htext : Json.Quotes "x\"\x7d" [120] "\x7d" := Json.quotes_of_readUnits rfl
  have hmember : Json.Names "\"error\": \"x\"\x7d" "error" "\"x\"\x7d" :=
    .name hname (Json.blankUpTo_refl _) (Json.blankUpTo_skipBlanks " \"x\"\x7d")
  let limits := Client.standard.limits
  have hbody : Json.Denotes limits.digits limits.nesting "\x7b\"error\": \"x\"\x7d"
      (.object [("error", .text "x")]) :=
    ⟨_, [], Json.blankUpTo_refl _, .object (Json.blankUpTo_refl _)
      (.lastMember hmember (.text htext) (Json.blankUpTo_refl _)), Json.blankUpTo_refl []⟩
  have hread := Json.read_eq_ok_iff.mpr hbody
  have hobject : ¬ ∃ fields, Value.text "x" = .object fields := by
    rintro ⟨fields, hfields⟩
    cases hfields
  have hreports : Reports (.object [("error", .text "x")]) (.text "x") := ⟨_, rfl, rfl, rfl⟩
  have hstatus : ¬ response.FailsByStatus := fun h => absurd h.1 (by decide)
  have hanswer : response.answer .standard = .error .errorNotObject :=
    Response.answer_of_not_object hstatus hread hreports hobject
  have hsame : (c.get .standard (fun _ => response) "search" []).answer =
      response.answer .standard := rfl
  rw [hsame, hanswer]
  refine ⟨⟨_, _, hbody⟩, hreports, rfl, fun h => ?_⟩
  exact h.ne_error.2.2.2 rfl

end Connection

end PortalSearch
