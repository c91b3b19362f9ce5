import PortalSearch.Connection

/-!
# What hooks leave alone

A hook only logs, so a connection with hooks should answer as one without. It does as long as every
hook gets to its log: an address that may hold a token is taken apart to mask it, and one whose host
is no host cannot be (`exists_mask_iff`). Then the hook fails, and the connection fails with it,
whatever the response is. Addresses that hold no token are never taken apart, and one without
brackets or separators in disguise always can be (`isShowable_of_plain`).

Main result: whatever client the connection goes through, hooks change no request, and they change
the answer exactly if one of them shows an address that cannot be masked (`answers_alike_iff`).
-/

namespace PortalSearch

/-! ## Addresses -/

namespace Url

variable {t : Text} {c : Char}

/-- The part of an address that is taken for its host. -/
def hostOf (t : Text) : Text := (splitHost (splitScheme (tidy t)).2).1

/-- An address can be taken apart exactly if its host can. -/
theorem exists_split_iff : (∃ p, split t = .ok p) ↔ checkHost (hostOf t) = .ok () := by
  simp only [split, hostOf]
  cases checkHost (splitHost (splitScheme (tidy t)).2).1 with
  | error e =>
    refine iff_of_false ?_ ?_
    · rintro ⟨p, hp⟩
      cases hp
    · intro he
      cases he
  | ok _ => exact iff_of_true ⟨_, rfl⟩ rfl

/-- Whether an address can be shown: it holds no token, or it can be taken apart. -/
def IsShowable (address : Text) : Prop :=
  Text.hasPart tokenLead address = true → checkHost (hostOf address) = .ok ()

theorem exists_mask_iff : (∃ shown, mask t = .ok shown) ↔ IsShowable t := by
  rw [mask, IsShowable]
  split
  · next htoken =>
    rw [← exists_split_iff]
    cases split t with
    | error e => exact ⟨nofun, fun h => absurd (h htoken) nofun⟩
    | ok p => exact ⟨fun _ _ => ⟨p, rfl⟩, fun _ => ⟨_, rfl⟩⟩
  · next htoken => exact ⟨fun _ h => absurd h htoken, fun _ => ⟨t, rfl⟩⟩

/-! ### Plain addresses -/

theorem mem_of_mem_splitFirst {mark : Char} {rest : Text}
    (hrest : (Text.splitFirst mark t).2 = some rest) (hc : c ∈ rest) : c ∈ t := by
  induction t with
  | nil => cases hrest
  | cons x t ih =>
    rw [Text.splitFirst] at hrest
    split at hrest
    · obtain rfl := Option.some.inj hrest
      exact List.mem_cons_of_mem _ hc
    · exact List.mem_cons_of_mem _ (ih hrest)

theorem mem_of_mem_splitScheme (hc : c ∈ (splitScheme t).2) : c ∈ t := by
  rw [splitScheme] at hc
  split at hc
  · next hsplit =>
    split at hc
    · exact mem_of_mem_splitFirst (congrArg Prod.snd hsplit) hc
    · exact hc
  · exact hc

theorem mem_of_mem_tidy (hc : c ∈ tidy t) : c ∈ t :=
  (List.dropWhile_suffix _).subset (List.mem_filter.mp hc).1

theorem mem_of_mem_splitHost (hc : c ∈ (splitHost t).1) : c ∈ t := by
  rw [splitHost.eq_def] at hc
  split at hc
  · exact List.mem_cons_of_mem _ (List.mem_cons_of_mem _ ((List.takeWhile_prefix _).subset hc))
  · cases hc

theorem mem_of_mem_hostOf (hc : c ∈ hostOf t) : c ∈ t :=
  mem_of_mem_tidy (mem_of_mem_splitScheme (mem_of_mem_splitHost hc))

theorem checkHost_of_plain {host : Text} (hopen : '[' ∉ host) (hclose : ']' ∉ host)
    (hdisguised : ∀ c ∈ host, c ∉ disguisedSeparators) : checkHost host = .ok () := by
  have hany : host.any disguisedSeparators.contains = false := by
    rw [List.any_eq_false]
    intro c hc hcontains
    exact hdisguised c hc (List.contains_iff_mem.mp hcontains)
  have hleft : host.contains '[' = false := by simpa using hopen
  have hright : host.contains ']' = false := by simpa using hclose
  rw [checkHost, hleft, hright, hany]
  rfl

/-- An address without brackets and without separators in disguise can be shown. -/
theorem isShowable_of_plain (hopen : '[' ∉ t) (hclose : ']' ∉ t)
    (hdisguised : ∀ c ∈ t, c ∉ disguisedSeparators) : IsShowable t := by
  intro _
  apply checkHost_of_plain
  · exact fun h => hopen (mem_of_mem_hostOf h)
  · exact fun h => hclose (mem_of_mem_hostOf h)
  · exact fun c hc => hdisguised c (mem_of_mem_hostOf hc)

end Url

/-! ## Hooks -/

namespace Hook

variable {r : Response} {hooks : List Hook}

/-- The addresses that a hook shows of a response. -/
def addresses (hook : Hook) (r : Response) : List Text :=
  match hook with
  | brief => r.address.toList
  | detailed => r.address.toList ++ r.request.address.toList
  | failures =>
    if r.status = 200 ∨ r.status = 302 then []
    else r.address.toList ++ r.request.address.toList

theorem exists_map_iff {ε α β : Type} {x : Except ε α} (f : α → β) :
    (∃ y, x.map f = .ok y) ↔ ∃ a, x = .ok a := by
  cases x with
  | error e => exact ⟨nofun, nofun⟩
  | ok a => exact ⟨fun _ => ⟨a, rfl⟩, fun _ => ⟨_, rfl⟩⟩

theorem exists_shownAddress_iff {address : Option Text} :
    (∃ shown, shownAddress address = .ok shown) ↔ ∀ a ∈ address.toList, Url.IsShowable a := by
  cases address with
  | none => exact ⟨fun _ => nofun, fun _ => ⟨_, rfl⟩⟩
  | some a => simpa [shownAddress] using Url.exists_mask_iff

theorem exists_description_iff : (∃ text, description r = .ok text) ↔
    ∀ a ∈ r.address.toList ++ r.request.address.toList, Url.IsShowable a := by
  rw [List.forall_mem_append, ← exists_shownAddress_iff, ← exists_shownAddress_iff, description]
  cases shownAddress r.address with
  | error e => exact ⟨nofun, nofun⟩
  | ok address =>
    cases shownAddress r.request.address with
    | error e => exact ⟨nofun, nofun⟩
    | ok asked => exact ⟨fun _ => ⟨⟨_, rfl⟩, ⟨_, rfl⟩⟩, fun _ => ⟨_, rfl⟩⟩

/-- **A hook succeeds** exactly if the addresses that it shows can be shown. -/
theorem exists_records_iff (hook : Hook) :
    (∃ rs, hook.records r = .ok rs) ↔ ∀ a ∈ hook.addresses r, Url.IsShowable a := by
  cases hook with
  | brief => exact (exists_map_iff _).trans exists_shownAddress_iff
  | detailed => exact (exists_map_iff _).trans exists_description_iff
  | failures =>
    rw [records, addresses]
    split
    · exact iff_of_true ⟨[], rfl⟩ (List.forall_mem_nil _)
    · exact (exists_map_iff _).trans exists_description_iff

/-- Hooks in a row end with one that fails. -/
theorem runHooks_cons_of_error (client : Client) {hook : Hook} (hooks : List Hook)
    {e : Url.UrlError} (h : hook.records r = .error e) :
    client.runHooks ((hook :: hooks).map run) r = ⟨[], .error e⟩ := by
  have hrun : hook.run r = ⟨[], .error e⟩ := by rw [run, h]
  rw [List.map_cons, client.runHooks_of_error _ _ r e (by rw [hrun]), hrun]

/-- Behind one that succeeds they go on with the same response. -/
theorem runHooks_cons_of_ok (client : Client) {hook : Hook} (hooks : List Hook) {rs : List Record}
    (h : hook.records r = .ok rs) :
    client.runHooks ((hook :: hooks).map run) r =
      (client.runHooks (hooks.map run) r).after rs := by
  have hrun : hook.run r = ⟨rs, .ok r⟩ := by rw [run, h]
  rw [List.map_cons, client.runHooks_of_ok _ _ r r (by rw [hrun]), hrun]

/-- Hooks in a row hand the response on as it is if each of them succeeds; else one of them
fails. -/
theorem result_runHooks (client : Client) (hooks : List Hook) (r : Response) :
    let result := (client.runHooks (hooks.map run) r).result
    let showable := ∀ a ∈ hooks.flatMap (addresses · r), Url.IsShowable a
    result = .ok r ∧ showable ∨ (∃ e, result = .error e) ∧ ¬ showable := by
  dsimp only
  induction hooks with
  | nil =>
    rw [List.map_nil, client.runHooks_nil]
    exact .inl ⟨rfl, nofun⟩
  | cons hook hooks ih =>
    rw [List.flatMap_cons, List.forall_mem_append, ← exists_records_iff]
    cases h : hook.records r with
    | error e =>
      rw [runHooks_cons_of_error client hooks h]
      exact .inr ⟨⟨e, rfl⟩, nofun⟩
    | ok rs =>
      rw [runHooks_cons_of_ok client hooks h]
      exact ih.imp (.imp_right fun hshown => ⟨⟨rs, rfl⟩, hshown⟩)
        (.imp_right fun hnot hshown => hnot hshown.2)

end Hook

/-! ## Connections -/

/-- No response is answered with what only a hook fails with. -/
theorem Response.answer_ne_url (client : Client) (r : Response) (e : Url.UrlError) :
    r.answer client ≠ .error (.url e) := by
  rw [answer]
  split
  · nofun
  · split
    · nofun
    · nofun
    · nofun
    · next body _ =>
      rw [answerOf]
      split
      · next v _ =>
        rw [errorOf.eq_def]
        split <;> nofun
      · nofun

namespace Connection

theorem foldl_addHook (c : Connection) (hooks : List Hook) :
    hooks.foldl addHook c = { c with hooks := c.hooks ++ hooks } := by
  induction hooks generalizing c with
  | nil => rw [List.append_nil]; rfl
  | cons hook hooks ih => rw [List.foldl_cons, ih, addHook, List.append_assoc]; rfl

/-- Asks by one of the two methods. -/
def ask (c : Connection) (client : Client) (network : Request → Response) (method : Method)
    (address : Text) (params : Params) : Exchange :=
  match method with
  | .get => c.get client network address params
  | .post => c.post client network address params

section Asking

variable {c : Connection} {client : Client} {network : Request → Response} {method : Method}
  {address : Text} {params : Params}

/-- A connection sends what it prepares. -/
theorem ask_sent : (c.ask client network method address params).sent =
    [c.prepare ⟨method, address, params⟩] := by
  cases method with
  | get | post => rfl

/-- A connection answers as the response says that its hooks hand on. -/
theorem ask_answer_of_ok {r : Response} (h : (client.runHooks (c.hooks.map Hook.run)
    (network (c.prepare ⟨method, address, params⟩))).result = .ok r) :
    (c.ask client network method address params).answer = r.answer client := by
  cases method with
  | get | post => simp only [ask, get, post, send, h]

/-- A connection fails with the hook that fails. -/
theorem ask_answer_of_error {e : Url.UrlError} (h : (client.runHooks (c.hooks.map Hook.run)
    (network (c.prepare ⟨method, address, params⟩))).result = .error e) :
    (c.ask client network method address params).answer = .error (.url e) := by
  cases method with
  | get | post => simp only [ask, get, post, send, h]

end Asking

/-- **Hooks change no request**, and they leave the answer as it is exactly if each of the addresses
that they show can be shown; else the answer is the failure of a hook. -/
theorem answers_alike_iff (c : Connection) (hooks : List Hook) (client : Client)
    (network : Request → Response) (method : Method) (address : Text) (params : Params) :
    let bare := c.clearHooks
    let hooked := hooks.foldl addHook bare
    let response := network (bare.prepare ⟨method, address, params⟩)
    let shown := hooks.flatMap (Hook.addresses · response)
    let alone := bare.ask client network method address params
    let observed := hooked.ask client network method address params
    observed.sent = alone.sent ∧
      (observed.answer = alone.answer ↔ ∀ a ∈ shown, Url.IsShowable a) ∧
      ((∃ a ∈ shown, ¬ Url.IsShowable a) → ∃ e, observed.answer = .error (.url e)) := by
  intro bare hooked response shown alone observed
  have hhooked : hooked = { c with hooks } := foldl_addHook bare hooks
  have hobserved : observed = ask { c with hooks } client network method address params := by
    simp only [observed, hhooked]
  have halone : alone.answer = response.answer client :=
    ask_answer_of_ok (by rw [show bare.hooks.map Hook.run = [] from rfl, client.runHooks_nil])
  have hsent : alone.sent = [bare.prepare ⟨method, address, params⟩] := ask_sent
  rw [hobserved, halone]
  refine ⟨ask_sent.trans hsent.symm, ?_⟩
  rcases Hook.result_runHooks client hooks response with ⟨hresult, hshown⟩ | ⟨⟨e, hresult⟩, hnot⟩
  · rw [ask_answer_of_ok hresult]
    exact ⟨iff_of_true rfl hshown, fun ⟨a, ha, hno⟩ => absurd (hshown a ha) hno⟩
  · rw [ask_answer_of_error hresult]
    exact ⟨iff_of_false (fun h => response.answer_ne_url client e h.symm) hnot, fun _ => ⟨e, rfl⟩⟩

/-- A response from an address with half a pair of brackets is answered, but not once it is
logged. -/
theorem answer_lost_to_hook :
    let response : Response :=
      ⟨200, some "OK", some "http://[?token=a", "{}", ⟨none, none, .null⟩⟩
    let bare : Connection := ⟨"https://www.arcgis.com/sharing/rest", none, []⟩
    let network : Request → Response := fun _ => response
    (bare.get .standard network "search" []).answer = .ok (.object []) ∧
      ((bare.addHook .brief).get .standard network "search" []).answer =
        .error (.url .unpairedBracket) :=
  ⟨rfl, rfl⟩

end Connection

end PortalSearch
