import Mathlib.Data.List.Forall2
import PortalSearch.Proofs.Hook.Secrecy

/-!
# What a connection keeps to itself

A connection logs every request before it is sent, and lets its hooks log the response. The hooks
mask the tokens in an address. The connection does not: it logs the address as it looked it up in
the portal, and what it puts in front of a path leaves the query as it is (`resolve_inj`).

Main result: whatever client the connection goes through, in two runs that are equal but for the
values of tokens in the addresses that are asked for and in those that answer, the hooks log the
same; the connection does exactly if the addresses that are asked for are equal (`log_alike_iff`).
-/

namespace PortalSearch.Connection

open Url

/-! ## Runs -/

/-- What can be done with a connection. -/
inductive Move where
  /-- to add a hook -/
  | addHook (hook : Hook)
  /-- to drop all hooks -/
  | clearHooks
  /-- to send a request, which the network gives some response to -/
  | ask (r : Request) (response : Response)

/-- The address that is asked for. -/
def Move.address? : Move → Option Text
  | .ask r _ => some r.address
  | .addHook _ | .clearHooks => none

/-- Does one thing through a client: the connection behind it, and what is logged. -/
def move (client : Client) (c : Connection) : Move → Connection × List Record
  | .addHook hook => (c.addHook hook, [])
  | .clearHooks => (c.clearHooks, [])
  | .ask r response => (c, (c.send client (fun _ => response) r).journal.records)

/-- What is logged in the course of a run. -/
def log (client : Client) (c : Connection) : List Move → List Record
  | [] => []
  | m :: ms => (c.move client m).2 ++ (c.move client m).1.log client ms

/-- Whether two moves are equal but for the values of tokens, in the query of the address that is
asked for and in those of the response. -/
inductive AlikeMoves : Move → Move → Prop
  /-- adding the same hook -/
  | addHook (hook : Hook) : AlikeMoves (.addHook hook) (.addHook hook)
  /-- dropping all hooks -/
  | clearHooks : AlikeMoves .clearHooks .clearHooks
  /-- asking in the same way -/
  | ask (method : Method) (a b : Text) (params : Params) (r s : Response)
    (haddress : AlikeAddresses a b) (hresponse : r.AlikeAddressed s) :
    AlikeMoves (.ask ⟨method, a, params⟩ r) (.ask ⟨method, b, params⟩ s)

/-! ## The address that is logged -/

variable {c : Connection} {a b : Text} {m n : Move} {ms ns : List Move}

/-- Whether an address needs no portal is told before its query. -/
theorem prefix_query_iff {front : Text} (hfront : '?' ∉ front) (path t : Text) :
    front <+: path ++ '?' :: t ↔ front <+: path := by
  refine ⟨?_, fun h => h.trans (List.prefix_append ..)⟩
  intro h
  have hmark : path ++ ['?'] <+: path ++ '?' :: t := ⟨t, by simp⟩
  have hlong : ¬ path ++ ['?'] <+: front := fun hp => hfront (hp.subset (by simp))
  rcases List.prefix_or_prefix_of_prefix h hmark with hshort | hp
  · rcases List.prefix_concat_iff.mp hshort with rfl | hpath
    · exact absurd (List.prefix_refl _) hlong
    · exact hpath
  · exact absurd hp hlong

theorem isAbsolute_query (path t : Text) : isAbsolute (path ++ '?' :: t) = isAbsolute path := by
  have hprefix {front : Text} (hfront : '?' ∉ front) :
      front.isPrefixOf (path ++ '?' :: t) = front.isPrefixOf path := by
    rw [Bool.eq_iff_iff, List.isPrefixOf_iff_prefix, List.isPrefixOf_iff_prefix,
      prefix_query_iff hfront]
  rw [isAbsolute, isAbsolute, hprefix (by decide), hprefix (by decide)]

/-- Looking up an address leaves the token in its query as it is. -/
theorem resolve_inj (c : Connection) (h : AlikeAddresses a b) :
    c.resolve a = c.resolve b ↔ a = b := by
  cases h with
  | refl => exact ⟨fun _ => rfl, fun _ => rfl⟩
  | query path s t rest _ _ _ _ =>
    rw [resolve, resolve, isAbsolute_query, isAbsolute_query]
    split
    · exact Iff.rfl
    · rw [dropWhile_append_query (by decide), dropWhile_append_query (by decide)]
      simp

theorem requestRecord_inj (method : Method) (ps qs : Params) :
    requestRecord ⟨method, a, ps⟩ = requestRecord ⟨method, b, qs⟩ ↔ a = b := by
  simp [requestRecord]

/-! ## Moves -/

/-- What alike moves come to. -/
structure AlikeEnds (client : Client) (c : Connection) (m n : Move) : Prop where
  /-- the same connection -/
  connection : (c.move client m).1 = (c.move client n).1
  /-- as many records -/
  length : (c.move client m).2.length = (c.move client n).2.length
  /-- the same records apart from those of requests -/
  others : ((c.move client m).2.filter fun r => r.channel ≠ .requests) =
    (c.move client n).2.filter fun r => r.channel ≠ .requests
  /-- the same records altogether, if the addresses are the same -/
  records : (c.move client m).2 = (c.move client n).2 ↔ m.address? = n.address?

theorem move_alike (client : Client) (c : Connection) (h : AlikeMoves m n) :
    c.AlikeEnds client m n := by
  cases h with
  | addHook | clearHooks => exact ⟨rfl, rfl, rfl, ⟨fun _ => rfl, fun _ => rfl⟩⟩
  | ask method a b params r s haddress hresponse =>
    have hlogged (a : Text) (r : Response) : (c.move client (.ask ⟨method, a, params⟩ r)).2 =
        requestRecord (c.prepare ⟨method, a, params⟩) ::
          (client.runHooks (c.hooks.map Hook.run) r).records := rfl
    have hhooks := (Hook.runHooks_alike hresponse client c.hooks).records
    refine ⟨rfl, ?_, ?_, ?_⟩
    · rw [hlogged, hlogged, hhooks, List.length_cons, List.length_cons]
    · rw [hlogged, hlogged, hhooks]
      rfl
    · rw [hlogged, hlogged, hhooks, List.cons.injEq, and_iff_left rfl, prepare, prepare,
        requestRecord_inj, resolve_inj c haddress, Move.address?, Move.address?,
        Option.some.injEq]

/-- **The values of tokens in addresses** make no difference to what hooks log in the course of a
run, but the whole log is the same exactly if the addresses that are asked for are. -/
theorem log_alike_iff (client : Client) (c : Connection) (h : List.Forall₂ AlikeMoves ms ns) :
    ((c.log client ms).filter fun r => r.channel ≠ .requests) =
      ((c.log client ns).filter fun r => r.channel ≠ .requests) ∧
    (c.log client ms = c.log client ns ↔ ms.map Move.address? = ns.map Move.address?) := by
  induction h generalizing c with
  | nil => exact ⟨rfl, ⟨fun _ => rfl, fun _ => rfl⟩⟩
  | cons hmove _ ih =>
    obtain ⟨hconnection, hlength, hothers, hrecords⟩ := move_alike client c hmove
    obtain ⟨hothersLater, hlater⟩ := ih (c.move client _).1
    rw [log, log, ← hconnection, List.filter_append, List.filter_append, hothers, hothersLater,
      List.map_cons, List.map_cons, List.cons.injEq, ← hrecords, ← hlater]
    refine ⟨rfl, ?_, ?_⟩
    · exact fun heq => List.append_inj heq hlength
    · rintro ⟨hfirst, hrest⟩
      rw [hfirst, hrest]

/-- Hooks come and go between two requests of which the second is asked for with another token. -/
theorem log_alike_between_hooks :
    let c : Connection := ⟨"https://www.arcgis.com/sharing/rest", none, [.failures]⟩
    let query (token : Text) : Text := "f=json&" ++ tokenLead ++ token ++ "&start=1"
    let address (token : Text) : Text := "search" ++ '?' :: (query token ++ [])
    let response (token : Text) : Response :=
      ⟨404, some "Not Found", some (address token), "{}", ⟨some "GET", some (address token), .null⟩⟩
    let moves (token : Text) : List Move := [.ask ⟨.post, "community/users", []⟩ (response "c"),
      .addHook .brief, .ask ⟨.get, address token, []⟩ (response token), .clearHooks]
    List.Forall₂ AlikeMoves (moves "a") (moves "b") ∧
      ((c.log .standard (moves "a")).filter fun r => r.channel ≠ .requests) =
        (c.log .standard (moves "b")).filter fun r => r.channel ≠ .requests := by
  intro c query address response moves
  have hswap : SwapsValue '&' tokenLead (query "a") (query "b") := by
    refine .swap "f=json&".toList _ _ "&start=1".toList (.inr ⟨"f=json".toList, ?_⟩) ?_ ?_
    all_goals decide
  have haddress : AlikeAddresses (address "a") (address "b") :=
    .query "search" _ _ [] (by decide) (by decide) (by decide) (.single hswap)
  have hresponse : (response "a").AlikeAddressed (response "b") :=
    ⟨.some haddress, .some haddress, rfl⟩
  have hmoves : List.Forall₂ AlikeMoves (moves "a") (moves "b") :=
    .cons (.ask _ _ _ _ _ _ (.refl _) ⟨.some (.refl _), .some (.refl _), rfl⟩)
      (.cons (.addHook _) (.cons (.ask _ _ _ _ _ _ haddress hresponse) (.cons .clearHooks .nil)))
  exact ⟨hmoves, (log_alike_iff .standard c hmoves).1⟩

/-- A connection without hooks shows the token in an address that is asked for. -/
theorem token_shown_by_connection :
    let c : Connection := ⟨"https://www.arcgis.com/sharing/rest", none, []⟩
    let query (token : Text) : Text := [] ++ tokenLead ++ token ++ []
    let address (token : Text) : Text := "search" ++ '?' :: (query token ++ [])
    let response : Response := ⟨200, some "OK", none, "{}", ⟨none, none, .null⟩⟩
    let moves (token : Text) : List Move := [.ask ⟨.get, address token, []⟩ response]
    List.Forall₂ AlikeMoves (moves "secret") (moves "other") ∧
      c.log .standard (moves "secret") = [⟨.requests, .debug,
        "REQUEST (get): https://www.arcgis.com/sharing/rest/search?token=secret"⟩] ∧
      c.log .standard (moves "secret") ≠ c.log .standard (moves "other") := by
  intro c query address response moves
  have hswap : SwapsValue '&' tokenLead (query "secret") (query "other") := by
    refine .swap [] _ _ [] (.inl rfl) ?_ ?_ <;> decide
  have haddress : AlikeAddresses (address "secret") (address "other") :=
    .query "search" _ _ [] (by decide) (by decide) (by decide) (.single hswap)
  have hresponse : response.AlikeAddressed response := ⟨.none, .none, rfl⟩
  refine ⟨.cons (.ask _ _ _ _ _ _ haddress hresponse) .nil, by decide +kernel, by decide +kernel⟩

end PortalSearch.Connection
