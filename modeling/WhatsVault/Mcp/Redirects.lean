import WhatsVault.Library.Loop
import WhatsVault.Library.UrlForm
import WhatsVault.Mcp.Deployment

/-!
# Where a browser is sent with a code

The page that waits for an approval goes where the poll tells it to.  The answer is made of the rows behind
the code: the redirect URI of the request, with the code and the state appended to its query.

A state is whatever text came with the request, so the URL is right only if the encoding can be undone:
`utf8_redirectWith` says that it is the form encoding of the library.  In a run of a deployment the browser
goes to a page that was registered, for a request that was approved (`redirect_of_run`).
-/

namespace WhatsVault.Http

open OAuth Checks

/-! ## Form encoding of text -/

lemma utf8_append (s t : String) : utf8 (s ++ t) = utf8 s ++ utf8 t := by
  simp [utf8]

lemma utf8_join (l : List String) : utf8 (String.join l) = l.flatMap utf8 := by
  induction l with
  | nil => rfl
  | cons s l ih => rw [String.join_cons, utf8_append, ih, List.flatMap_cons]

lemma utf8_eq_flatMap (s : String) : utf8 s = s.toList.flatMap String.utf8EncodeChar := by
  unfold utf8
  rw [String.toUTF8, ← String.utf8Encode_toList, List.utf8Encode, List.toList_data_toByteArray]

/-- A byte of ASCII stands for its character alone. -/
lemma mem_utf8EncodeChar {c d : Char} (hc : c.toNat < 128) :
    UInt8.ofNat c.toNat ∈ String.utf8EncodeChar d ↔ c = d := by
  have hbyte {n : ℕ} (hn : n < 256) : UInt8.ofNat c.toNat = UInt8.ofNat n ↔ c.toNat = n := by
    have hc' : c.toNat < 256 := by omega
    rw [← UInt8.toNat_inj, UInt8.toNat_ofNat_of_lt' hc', UInt8.toNat_ofNat_of_lt' hn]
  have hhigh {n : ℕ} (hlow : 128 ≤ n) (hn : n < 256) : UInt8.ofNat c.toNat ≠ UInt8.ofNat n := by
    rw [ne_eq, hbyte hn]
    omega
  have hchar : c.toNat = d.val.toNat ↔ c = d := Char.toNat_inj
  unfold String.utf8EncodeChar
  dsimp only
  split
  · rw [List.mem_singleton, hbyte (by omega), hchar]
  · have hne : c ≠ d := by
      rintro rfl
      have := hchar.mpr rfl
      omega
    refine iff_of_false ?_ hne
    -- every byte of a longer sequence is 128 or more
    split
    · simp only [List.mem_cons, List.not_mem_nil, or_false, not_or]
      exact ⟨hhigh (by omega) (by omega), hhigh (by omega) (by omega)⟩
    split
    · simp only [List.mem_cons, List.not_mem_nil, or_false, not_or]
      exact ⟨hhigh (by omega) (by omega), hhigh (by omega) (by omega), hhigh (by omega) (by omega)⟩
    · simp only [List.mem_cons, List.not_mem_nil, or_false, not_or]
      exact ⟨hhigh (by omega) (by omega), hhigh (by omega) (by omega), hhigh (by omega) (by omega),
        hhigh (by omega) (by omega)⟩

lemma mem_utf8 {c : Char} (hc : c.toNat < 128) {s : String} :
    UInt8.ofNat c.toNat ∈ utf8 s ↔ c ∈ s.toList := by
  rw [utf8_eq_flatMap, List.mem_flatMap]
  simp [mem_utf8EncodeChar hc]

/-- What `quote_plus` writes of a byte. -/
def quotedByte (x : UInt8) : String :=
  let c := Char.ofNat x.toNat
  if c = ' ' then "+"
  else if c.isAlphanum ∨ c ∈ ['_', '.', '-', '~'] then String.singleton c
  else "%" ++ (hex [x]).toUpper

lemma utf8_quotedByte :
    ∀ n : Fin 256, utf8 (quotedByte (UInt8.ofNat n)) = UrlForm.encodeByte (UInt8.ofNat n) := by
  decide +kernel

lemma utf8_quotePlus (s : String) : utf8 (quotePlus s) = UrlForm.quote (utf8 s) := by
  unfold quotePlus UrlForm.quote
  rw [utf8_join, List.flatMap_map]
  refine List.flatMap_congr fun x _ => ?_
  have h := utf8_quotedByte ⟨x.toNat, x.toNat_lt⟩
  rwa [UInt8.ofNat_toNat] at h

/-- The bytes of fields. -/
def fieldBytes (params : List (String × String)) : List (Bytes × Bytes) :=
  params.map fun p => (utf8 p.1, utf8 p.2)

lemma utf8_urlencode (params : List (String × String)) :
    utf8 (urlencode params) = UrlForm.encode (fieldBytes params) := by
  have hfield (p : String × String) :
      utf8 (quotePlus p.1 ++ "=" ++ quotePlus p.2) = UrlForm.field (utf8 p.1, utf8 p.2) := by
    rw [utf8_append, utf8_append, utf8_quotePlus, utf8_quotePlus, List.append_assoc]
    rfl
  induction params with
  | nil => rfl
  | cons p params ih =>
    cases params with
    | nil => simpa [urlencode, fieldBytes, UrlForm.encode] using hfield p
    | cons q params =>
      have hrest : urlencode (p :: q :: params) =
          quotePlus p.1 ++ "=" ++ quotePlus p.2 ++ "&" ++ urlencode (q :: params) :=
        String.intercalate_cons_cons
      have hbytes : UrlForm.encode (fieldBytes (p :: q :: params)) =
          UrlForm.field (utf8 p.1, utf8 p.2) ++ 38 :: UrlForm.encode (fieldBytes (q :: params)) :=
        UrlForm.encode_cons_cons _ _ _
      rw [hrest, utf8_append, utf8_append, hfield, ih, hbytes, List.append_assoc]
      rfl

/-- The parameters a code is handed over with. -/
def handover (secret : String) (state : Option String) : List (String × String) :=
  ("code", secret) :: (state.map fun state => ("state", state)).toList

lemma utf8_redirectWith (uri secret : String) (state : Option String) :
    utf8 (redirectWith uri secret state) =
      UrlForm.extend (utf8 uri) (fieldBytes (handover secret state)) := by
  have hmark : 63 ∈ utf8 uri ↔ '?' ∈ uri.toList := mem_utf8 (c := '?') (by decide)
  unfold redirectWith UrlForm.extend
  rw [utf8_append, utf8_append, utf8_urlencode, List.append_assoc, handover]
  congr 1
  by_cases h : '?' ∈ uri.toList
  · rw [if_pos h, if_pos (hmark.mpr h)]
    rfl
  · rw [if_neg h, if_neg (hmark.not.mpr h)]
    rfl

/-! ## What the rows behind a code say -/

/-- The URIs of a client were checked when it was registered. -/
lemma registered_of_registers {s : Tables} {name : PyStr} {uris : List PyStr} {clientId : String} {now : ℤ}
    {client : Client} (h : Registers (s, .registerClient name uris clientId now) client) :
    client.clientId = clientId ∧ client.redirectUris = uris ∧ ∀ uri ∈ uris, checkUri uri = .ok () := by
  cases h with
  | mk hregister hclients =>
    simp only [registerClient, bind_eq_ok, orStop_eq_ok, require_eq_ok, pure_eq_ok, forM_eq_ok] at hregister
    obtain ⟨-, -, -, -, -, hcheck, name, -, clients, hinsert, rfl⟩ := hregister
    obtain ⟨-, rfl⟩ := Table.insert_eq_some_iff.mp hinsert
    have hrow := List.singleton_inj.mp (List.append_cancel_left hclients)
    subst hrow
    exact ⟨rfl, rfl, hcheck⟩

/-- An https URL without a fragment. -/
def Secure (uri : String) : Prop := "https://".toList <+: uri.toList ∧ '#' ∉ uri.toList

lemma secure_of_checkUri {uri : String} (h : checkUri (.text uri) = .ok ()) : Secure uri := by
  simp only [checkUri, bind_eq_ok, require_eq_ok] at h
  obtain ⟨-, -, -, hscheme, hfragment⟩ := h
  obtain ⟨rest, hrest⟩ := List.isPrefixOf_iff_prefix.mp hscheme
  obtain ⟨first, last, huri, hfirst, -⟩ := List.map_eq_append_iff.mp hrest.symm
  have hinjective : Function.Injective Char.toNat := fun c d => Char.toNat_inj.mp
  refine ⟨⟨last, ?_⟩, fun hmem => hfragment (List.mem_map_of_mem hmem)⟩
  rw [huri, List.map_injective_iff.mpr hinjective hfirst]

/-- What a request asked for is recorded. -/
lemma recorded_of_begins {S : Stdlib} {r : AuthorizationRequest} {s : Tables} {requestId userCode : String}
    {now : ℤ} {request : Pending}
    (h : Begins S (s, .beginAuthorization r requestId userCode now) request) :
    request.requestId = requestId ∧ r.clientId = .text request.clientId ∧
      r.redirectUri = .text request.redirectUri ∧ r.state = request.state.map .text := by
  cases h with
  | mk hinsert hpending =>
    simp only [insertPending, bind_eq_ok, orStop_eq_ok, require_eq_ok, pure_eq_ok] at hinsert
    obtain ⟨-, -, client, hclient, _, hredirect, -, -, -, -, -, -, -, -, -, -, redirectUri, huri,
      challenge, -, state, hstate, -, hfree, rfl⟩ := hinsert
    have hrow := List.singleton_inj.mp (List.append_cancel_left hpending)
    subst hrow
    refine ⟨rfl, ?_, eq_text_of_encode huri, ?_⟩
    · simp only [findClient, bind_eq_ok, orStop_eq_ok] at hclient
      obtain ⟨id, hid, hfind⟩ := hclient
      rw [eq_text_of_encode hid, (Table.mem_of_find_eq_some hfind).2]
    · cases hr : r.state with
      | none =>
        rw [hr] at hstate
        rw [← Option.some.inj hstate]
        rfl
      | some given =>
        rw [hr] at hstate
        obtain ⟨text, htext, rfl⟩ := Option.map_eq_some_iff.mp hstate
        rw [eq_text_of_encode htext]
        rfl

/-- A code is handed over for the request that was asked about. -/
lemma found_of_poll {P : Platform} {id : PyStr} {secret : String} {now : ℤ} {s s' : Tables}
    {requestId : String} {code : Code} (h : poll P id secret now s = .ok (some (requestId, code), s')) :
    ∃ row ∈ s.pending, Table.find Pending.requestId requestId s.pending = some row ∧
      id = .text requestId ∧ row.requestId = requestId ∧ row.approvedMs ≠ none ∧
      code.redirectUri = row.redirectUri := by
  simp only [poll, bind_eq_ok, orStop_eq_ok] at h
  obtain ⟨key, hkey, h⟩ := h
  split at h
  · cases pure_eq_ok.mp h
  rename_i row hrow
  split at h
  · cases pure_eq_ok.mp h
  rename_i hready
  push Not at hready
  simp only [bind_eq_ok, orStop_eq_ok, pure_eq_ok, Prod.mk.injEq, Option.some.injEq] at h
  obtain ⟨codes, -, ⟨rfl, rfl⟩, -⟩ := h
  obtain ⟨hmem, hid⟩ := Table.mem_of_find_eq_some hrow
  subst hid
  exact ⟨row, hmem, hrow, eq_text_of_encode hkey, rfl, hready.1, rfl⟩

/-! ## Where a browser is sent -/

variable {P : Platform} {S : Stdlib} {W : Web} {app : App} {base : String}

/-- A registration among the acts named the URI and drew the id of the client. -/
def Named (W : Web) (acts : List Act) (clientId uri : String) : Prop :=
  ∃ r draws now fields redirectUris, .request r draws now ∈ acts ∧ draws.clientId = clientId ∧
    W.loads (readBody [] r.chunks) = .ok (.obj fields) ∧
    fields.lookup (.text "redirect_uris") = some (.arr redirectUris) ∧
    ∃ item ∈ redirectUris, W.str item = some (.text uri)

/-- An authorization request among the acts asked for what is recorded. -/
def Asked (W : Web) (acts : List Act) (request : Pending) : Prop :=
  ∃ r draws now, .request r draws now ∈ acts ∧ draws.requestId = request.requestId ∧
    formText (W.parseQsl r.queryString) "client_id" = .text request.clientId ∧
    formText (W.parseQsl r.queryString) "redirect_uri" = .text request.redirectUri ∧
    formGet (W.parseQsl r.queryString) "state" = request.state

/-- The URL is the redirect URI with the code and the state in its query. -/
structure Returns (uri secret : String) (state : Option String) (url : String) : Prop where
  target : UrlForm.target (utf8 url) = UrlForm.target (utf8 uri)
  parameters : UrlForm.parameters (utf8 url) =
    UrlForm.parameters (utf8 uri) ++ fieldBytes (handover secret state)
  secure : Secure url

lemma returns_redirectWith {uri : String} (h : Secure uri) (secret : String) (state : Option String) :
    Returns uri secret state (redirectWith uri secret state) := by
  obtain ⟨hscheme, hfragment⟩ := h
  have hash {s : String} : 35 ∈ utf8 s ↔ '#' ∈ s.toList := mem_utf8 (c := '#') (by decide)
  refine ⟨?_, ?_, ?_, ?_⟩
  · rw [utf8_redirectWith, UrlForm.target_extend]
  · rw [utf8_redirectWith, UrlForm.parameters_extend]
  · refine hscheme.trans ?_
    rw [redirectWith, String.toList_append, String.toList_append, List.append_assoc]
    exact List.prefix_append _ _
  · rw [← hash, utf8_redirectWith]
    exact UrlForm.hash_not_mem_extend (hash.not.mpr hfragment) _

/-- What is recorded was asked for in a request. -/
lemma asked_of_begins {acts : List Act} {d : Deed} (hd : d ∈ deeds P S W app acts) {request : Pending}
    (h : Begins S d request) : Asked W acts request := by
  have hbegins := h
  have hsource := source_of_deed hd
  cases h with
  | mk hinsert hpending =>
    obtain ⟨hid, hclient, huri, hstate⟩ := recorded_of_begins hbegins
    cases hsource with
    | authorize hact =>
      exact ⟨_, _, _, hact, hid.symm, hclient, huri,
        Option.map_injective (fun a b => PyStr.text.inj) hstate⟩

/-- A URI of a client came with its registration, and was checked. -/
lemma named_of_registers {acts : List Act} {d : Deed} (hd : d ∈ deeds P S W app acts) {client : Client}
    (h : Registers d client) {uri : String} (huri : .text uri ∈ client.redirectUris) :
    Named W acts client.clientId uri ∧ Secure uri := by
  have hregisters := h
  have hsource := source_of_deed hd
  cases h with
  | mk hregister hclients =>
    obtain ⟨hid, hsame, hcheck⟩ := registered_of_registers hregisters
    rw [hsame] at huri
    refine ⟨?_, secure_of_checkUri (hcheck _ huri)⟩
    cases hsource with
    | register hact hfields hlookup huris =>
      exact ⟨_, _, _, _, _, hact, hid.symm, hfields, hlookup, Loop.exists_of_mem_mapM huris huri⟩

/-- The response sends the browser to a URL that returns the secret for a request which was approved. -/
def Redirected (P : Platform) (S : Stdlib) (W : Web) (app : App) (acts : List Act) (requestId : PyStr)
    (secret : String) (response : Option Response) : Prop :=
  ∃ request url,
    response = jsonResponse W 200 (object [("ready", .bool true), ("redirect", text url)]) ∧
    requestId = .text request.requestId ∧ Approved P S W app acts request.requestId ∧
    Asked W acts request ∧ Named W acts request.clientId request.redirectUri ∧
    Returns request.redirectUri secret request.state url

lemma getPoll_cases {acts : List Act} (hfresh : Fresh (acts.flatMap (actOps S W app))) (draws : Draws)
    (now : ℤ) (query : List (String × String)) :
    (getPoll P W draws now query (Run.final (step P S W app base) .empty acts)).2 = none ∨
      (getPoll P W draws now query (Run.final (step P S W app base) .empty acts)).2 =
        jsonResponse W 200 (object [("ready", .bool false)]) ∨
      Redirected P S W app acts (formText query "request_id") draws.secret
        (getPoll P W draws now query (Run.final (step P S W app base) .empty acts)).2 := by
  have hstory := story_run P S _ hfresh
  rw [final_eq]
  unfold getPoll
  split
  · exact .inr (.inl rfl)
  · rename_i requestId code s' hpoll
    obtain ⟨row, hrow, hfind, hid, rfl, happroved, huri⟩ := found_of_poll hpoll
    obtain ⟨time, htime, -⟩ := hstory.approved row hrow happroved
    obtain ⟨⟨d, hd, client, hregisters, hclientId, hregistered⟩, ⟨d', hd', hbegins⟩⟩ :=
      hstory.pending row hrow
    obtain ⟨hnamed, hsecure⟩ := named_of_registers hd hregisters hregistered
    rw [hclientId] at hnamed
    have hstate : stateOf (Run.final (OAuth.step P S) .empty (acts.flatMap (actOps S W app)))
        row.requestId = row.state := by
      unfold stateOf
      rw [hfind]
      rfl
    refine .inr (.inr ⟨row.asked, _, rfl, hid, approved_of_mem_approvals htime,
      asked_of_begins hd' hbegins, hnamed, ?_⟩)
    rw [hstate, huri]
    exact returns_redirectWith hsecure _ _
  · rename_i e hpoll
    left
    cases e with
    | oauth code description => rfl
    | raised => rfl

/-- **A browser is sent to no other place, and with nothing else.**  In every run of a deployment a poll is
answered with a redirect only for a request that the operator approved, and the URL is a URI registered by
its client and named in the request, with the code and the state as it was given in its query. -/
theorem redirect_of_run (P : Platform) (S : Stdlib) (W : Web) (app : App) (base : String) (acts : List Act)
    (hfresh : Fresh (acts.flatMap (actOps S W app))) (r : Request) (draws : Draws) (now : ℤ) (raw : Bytes)
    (hraw : r.toScope.raw = some raw) (hroute : routeOf S r.method raw = some .poll)
    (response : Option Response)
    (h : .served r response ∈
      (step P S W app base (Run.final (step P S W app base) .empty acts) (.request r draws now)).2) :
    response = none ∨ response = jsonResponse W 200 (object [("ready", .bool false)]) ∨
      Redirected P S W app acts (formText (W.parseQsl r.queryString) "request_id") draws.secret
        response := by
  have hanswer : response = (getPoll P W draws now (W.parseQsl r.queryString)
      (Run.final (step P S W app base) .empty acts)).2 := by
    rw [answer_of_served h]
    unfold oauthApp
    rw [hraw]
    dsimp only
    rw [hroute]
  rw [hanswer]
  exact getPoll_cases hfresh draws now _

section Sample

/-- The code of a request with an ampersand in its state, for a URI with a query of its own. -/
theorem redirect_of_run_formActs :
    Redirected samplePlatform sampleStdlib formWeb sampleApp formActs (.text "wvr_1") "code-1"
      (oauthApp samplePlatform sampleStdlib formWeb "https://v" formDraws 4000 formPoll
        (Run.final (step samplePlatform sampleStdlib formWeb sampleApp "https://v") .empty formActs)).2 := by
  have h := redirect_of_run samplePlatform sampleStdlib formWeb sampleApp "https://v" formActs
    (by decide +kernel) formPoll formDraws 4000 (utf8 "/oauth/poll") (by decide +kernel)
    (by decide +kernel) _ (served_of_serves (by decide +kernel))
  have hquery : formText (formWeb.parseQsl formPoll.queryString) "request_id" = .text "wvr_1" := by
    decide +kernel
  rw [hquery] at h
  exact (h.resolve_left (by decide +kernel)).resolve_left (by decide +kernel)

end Sample

end WhatsVault.Http
