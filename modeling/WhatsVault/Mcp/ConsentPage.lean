import WhatsVault.Library.Markup
import WhatsVault.Library.Ranking
import WhatsVault.Mcp.Collection
import WhatsVault.Mcp.Deployment

/-!
# What the operator is asked to approve

The consent page names the client that asks and shows a code; the operator types the code at the terminal,
where the requests that wait are listed.  Anyone can register a client under any name and open the page, so
neither may show anything but what is being asked for.

`document` is the page as a browser has it.  Whatever the name is, the page that is sent is read as this
document, with the name as text (`browse_consentPage`).  In a run of a deployment the name and the code are
those of the row that the request left, and until it expires the code approves that request and no other
(`page_of_run`).  What the terminal lists is what can be approved (`listed_iff_approvable`).
-/

namespace WhatsVault.Http

open OAuth Checks

/-! ## What is drawn -/

/-- `_CODE_ALPHABET`. -/
def codeAlphabet : List Char := "ABCDEFGHJKLMNPQRTUVWXYZ2346789".toList

/-- `_new_user_code`, from the ten choices it makes. -/
def newUserCode (picks : Fin 10 → Fin 30) : String :=
  let body := (List.ofFn picks).map fun pick : Fin 30 => codeAlphabet.getD pick 'A'
  String.ofList (body.take 5 ++ '-' :: body.drop 5)

/-- The id of a request: `"wvr_" + secrets.token_urlsafe(16)`, from the bytes drawn. -/
def newRequestId (token : Bytes) : String := "wvr_" ++ String.ofList (base64url token)

lemma codeAlphabet_plain :
    ∀ pick : Fin 30, codeAlphabet.getD pick 'A' ≠ '<' ∧ codeAlphabet.getD pick 'A' ≠ '&' := by
  decide +kernel

lemma newUserCode_plain (picks : Fin 10 → Fin 30) {c : Char} (h : c ∈ (newUserCode picks).toList) :
    c ≠ '<' ∧ c ≠ '&' := by
  unfold newUserCode at h
  rw [String.toList_ofList, List.mem_append, List.mem_cons] at h
  have hbody {d : Char} (hd : d ∈ (List.ofFn picks).map fun pick : Fin 30 => codeAlphabet.getD pick 'A') :
      d ≠ '<' ∧ d ≠ '&' := by
    obtain ⟨pick, -, rfl⟩ := List.mem_map.mp hd
    exact codeAlphabet_plain pick
  obtain h | rfl | h := h
  · exact hbody (List.mem_of_mem_take h)
  · decide
  · exact hbody (List.mem_of_mem_drop h)

lemma newUserCode_ne_nil (picks : Fin 10 → Fin 30) : (newUserCode picks).toList ≠ [] := by
  simp [newUserCode]

lemma base64Digit_ne_quote (n : ℕ) : base64Digit n ≠ '"' := by
  have hlow : ∀ m < 62, base64Digit m ≠ '"' := by decide
  by_cases h : n < 62
  · exact hlow n h
  · unfold base64Digit
    rw [if_neg (by omega), if_neg (by omega), if_neg h]
    split
    · decide
    · decide

lemma quote_not_mem_base64url (token : Bytes) : '"' ∉ base64url token := by
  have hne (n : ℕ) : '"' ≠ base64Digit n := (base64Digit_ne_quote n).symm
  induction token using base64url.induct with
  | case1 => simp [base64url]
  | case2 x => simp [base64url, hne]
  | case3 x y => simp [base64url, hne]
  | case4 x y z rest ih => simp [base64url, hne, ih]

lemma newRequestId_plain (token : Bytes) : '"' ∉ (newRequestId token).toList := by
  simp [newRequestId, quote_not_mem_base64url]

/-! ## The page -/

/-- The name a client is shown with. -/
def displayName (W : Web) (name : String) : List Char :=
  let shown := (if name = "" then "An application" else name).toList.filter fun c => !W.isFormat c
  if shown = [] then "An application".toList else shown

lemma toList_htmlEscape (s : String) : (htmlEscape s).toList = s.toList.flatMap Markup.escape := by
  unfold htmlEscape
  rw [String.toList_join, List.flatMap_map]
  refine List.flatMap_congr fun c _ => ?_
  split
  · rfl
  · rfl
  · rfl
  · rfl
  · rfl
  · rename_i hamp hlt hgt hquot hapos
    have hnone : Markup.references.lookup c = none := by
      rw [List.lookup_eq_none_iff]
      simpa [Markup.references] using ⟨hamp, hlt, hgt, hquot, hapos⟩
    rw [Markup.escape, hnone]
    exact String.toList_singleton c

lemma toList_safeName (W : Web) (name : String) :
    (safeName W name).toList = (displayName W name).flatMap Markup.escape := by
  have hdefault : "An application".toList.flatMap Markup.escape = "An application".toList := by
    decide +kernel
  have hempty (l : List Char) : htmlEscape (String.ofList l) = "" ↔ l = [] := by
    rw [← String.toList_inj, toList_htmlEscape, String.toList_ofList]
    cases l with
    | nil => simp
    | cons c l => simp [Markup.escape_ne_nil]
  unfold safeName displayName
  dsimp only
  generalize List.filter _ _ = shown
  by_cases h : shown = []
  · rw [if_pos ((hempty shown).mpr h), if_pos h, hdefault]
  · rw [if_neg ((hempty shown).not.mpr h), if_neg h, toList_htmlEscape, String.toList_ofList]

lemma displayName_ne_nil (W : Web) (name : String) : displayName W name ≠ [] := by
  unfold displayName
  dsimp only
  generalize List.filter _ _ = shown
  by_cases h : shown = []
  · rw [if_pos h]
    decide
  · rwa [if_neg h]

/-- The style sheet of the page. -/
def styleSheet : String :=
  "\n".intercalate [
    "",
    " body\x7bfont:16px/1.6 -apple-system,system-ui,sans-serif;max-width:34rem;",
    "       margin:4rem auto;padding:0 1.25rem;color:#111\x7d",
    " code\x7bbackground:#f4f4f5;padding:.15em .4em;border-radius:4px\x7d",
    " .code\x7bfont:700 2rem/1.2 ui-monospace,Menlo,monospace;letter-spacing:.12em;",
    "        background:#f4f4f5;padding:1rem;border-radius:8px;text-align:center;" ++
      "margin:1.5rem 0\x7d",
    " .muted\x7bcolor:#666;font-size:.9rem\x7d",
    " @media(prefers-color-scheme:dark)\x7bbody\x7bbackground:#111;color:#eee\x7d" ++
      "code,.code\x7bbackground:#1e1e21\x7d\x7d",
    ""]

/-- The script of the page, which polls until there is a place to go to. -/
def pollScript : String :=
  "\n".intercalate [
    "",
    " const id = document.querySelector('[data-request-id]').dataset.requestId;",
    " setInterval(async () => \x7b",
    "   const r = await fetch('/oauth/poll?request_id=' + encodeURIComponent(id));",
    "   const j = await r.json();",
    "   if (j.ready) \x7b document.getElementById('s').textContent = 'Approved — returning…';",
    "                   location.href = j.redirect; \x7d",
    " \x7d, 2000);",
    ""]

open Markup

/-- The head of the page, up to the name. -/
def pageHead : List Segment :=
  [.tag "!doctype html".toList, .text ['\n'], .tag "meta charset=\"utf-8\"".toList,
    .tag "meta name=\"viewport\" content=\"width=device-width,initial-scale=1\"".toList, .text ['\n'],
    .tag "title".toList, .text "WhatsVault — approve access".toList, .tag "/title".toList, .text ['\n'],
    .tag "style".toList, .text styleSheet.toList, .tag "/style".toList, .text ['\n'],
    .tag "h1".toList, .text "Approve access".toList, .tag "/h1".toList, .text ['\n'],
    .tag "p".toList, .tag "strong".toList]

/-- What is asked for, between the name and the code. -/
def pageRequest : List Segment :=
  [.tag "/strong".toList, .text " is asking to ".toList, .tag "strong".toList, .text "read".toList,
    .tag "/strong".toList,
    .text (" your WhatsVault\narchive. It cannot send messages, and it will never see a full phone " ++
      "number.").toList,
    .tag "/p".toList, .text ['\n']]

/-- How to approve it, between the code and the command with the code. -/
def pageHowTo : List Segment :=
  [.tag "/div".toList, .text ['\n'], .tag "p".toList,
    .text ("This page will not ask you for a password. To approve, run this in a terminal\n" ++
      "on the machine holding the vault:").toList,
    .tag "/p".toList, .text ['\n'], .tag "p".toList, .tag "code".toList]

/-- The rest of the page. -/
def pageFoot : List Segment :=
  [.tag "/code".toList, .tag "/p".toList, .text ['\n'], .tag "p class=\"muted\"".toList,
    .text ("The request expires in 10 minutes. If you did not start this,\n" ++
      "close this page and do nothing — nothing is granted until you approve it.").toList,
    .tag "/p".toList, .text ['\n'], .tag "p id=\"s\" class=\"muted\"".toList,
    .text "Waiting for approval…".toList, .tag "/p".toList, .text ['\n'], .tag "script".toList,
    .text pollScript.toList, .tag "/script".toList, .text ['\n']]

/-- The tag with the id that the script polls for. -/
def requestTag (requestId : List Char) : List Char :=
  "div class=\"code\" data-request-id=\"".toList ++ (requestId ++ ['"'])

def approveCommand (userCode : List Char) : List Char :=
  "whatsvault oauth-approve --code ".toList ++ userCode

/-- The page as a browser has it: one sentence with the name in it, and the code. -/
def document (name requestId userCode : List Char) : List Segment :=
  pageHead ++ .text name :: (pageRequest ++ .tag (requestTag requestId) :: .text userCode ::
    (pageHowTo ++ .text (approveCommand userCode) :: pageFoot))

/-! ## What is printed -/

lemma toList_lines (s t : String) (l : List String) : ("\n".intercalate (s :: t :: l)).toList =
    s.toList ++ '\n' :: ("\n".intercalate (t :: l)).toList := by
  rw [String.intercalate_cons_cons]
  simp

lemma toList_lastLine : ("\n".intercalate [""]).toList = [] := by
  rw [String.intercalate_singleton]
  exact String.toList_ofList

set_option maxRecDepth 40000 in
/-- The page is printed from its document, with the name escaped. -/
lemma toList_consentPage (W : Web) (name requestId userCode : String) :
    (consentPage W name requestId userCode).toList =
      print (document ((displayName W name).flatMap escape) requestId.toList userCode.toList) := by
  rw [← toList_safeName]
  unfold consentPage
  generalize safeName W name = shown
  simp only [toList_lines, toList_lastLine, String.toList_append, List.append_assoc]
  unfold document requestTag approveCommand
  rw [print_append, print_text, print_append, print_tag_append, print_text, print_append, print_text_append]
  simp only [pageHead, pageRequest, pageHowTo, pageFoot, print_text, print_tag, print_nil, styleSheet,
    pollScript, toList_lines, toList_lastLine, String.toList_append]
  -- both sides are the same characters around the three slots
  repeat rw [String.toList_ofList]
  rfl

/-- Segments that are read back, with text that is shown as it stands. -/
def Fixed (segments : List Segment) : Prop := ∀ s ∈ segments, s.Whole ∧ s.shown = s

instance (segments : List Segment) : Decidable (Fixed segments) := List.decidableBAll _ _

set_option maxRecDepth 40000 in
lemma fixed_page : Fixed (pageHead ++ pageRequest ++ pageHowTo ++ pageFoot) := by
  unfold pageHead pageRequest pageHowTo pageFoot styleSheet pollScript
  simp only [toList_lines, toList_lastLine, String.toList_append]
  repeat rw [String.toList_ofList]
  decide +kernel

lemma whole_requestTag {requestId : List Char} (h : '"' ∉ requestId) :
    (Segment.tag (requestTag requestId)).Whole := by
  have hopening : inside .tag "div class=\"code\" data-request-id=\"".toList = some (.quoted '"') := by
    decide +kernel
  show inside .tag (requestTag requestId) = some .tag
  unfold requestTag
  rw [inside_append, hopening, Option.bind_some, inside_append, inside_quoted h]
  rfl

/-- The code stands alone and in the command. -/
lemma whole_userCode {userCode : List Char} (hne : userCode ≠ []) (h : '<' ∉ userCode) :
    (Segment.text userCode).Whole ∧ (Segment.text (approveCommand userCode)).Whole := by
  have hcommand : '<' ∉ "whatsvault oauth-approve --code ".toList := by decide +kernel
  refine ⟨⟨hne, h⟩, ?_, ?_⟩
  · unfold approveCommand
    exact List.append_ne_nil_of_right_ne_nil _ hne
  · unfold approveCommand
    rw [List.mem_append, not_or]
    exact ⟨hcommand, h⟩

lemma shown_userCode {userCode : List Char} (h : '&' ∉ userCode) :
    (Segment.text userCode).shown = .text userCode ∧
      (Segment.text (approveCommand userCode)).shown = .text (approveCommand userCode) := by
  have hcommand : '&' ∉ "whatsvault oauth-approve --code ".toList := by decide +kernel
  have happrove : '&' ∉ approveCommand userCode := by
    unfold approveCommand
    rw [List.mem_append, not_or]
    exact ⟨hcommand, h⟩
  exact ⟨congrArg _ (decode_of_not_mem h), congrArg _ (decode_of_not_mem happrove)⟩

lemma mem_document {name requestId userCode : List Char} {s : Segment}
    (h : s ∈ document name requestId userCode) :
    s ∈ pageHead ++ pageRequest ++ pageHowTo ++ pageFoot ∨ s = .text name ∨
      s = .tag (requestTag requestId) ∨ s = .text userCode ∨ s = .text (approveCommand userCode) := by
  unfold document at h
  simp only [List.mem_append, List.mem_cons] at h ⊢
  tauto

lemma apart_document (name requestId userCode : List Char) :
    (document name requestId userCode).IsChain Segment.Apart := by
  unfold document pageHead pageRequest pageHowTo pageFoot
  simp only [List.cons_append, List.nil_append, List.isChain_cons_cons, List.IsChain.singleton,
    Segment.Apart, and_true]

lemma map_shown_document (name requestId : List Char) {userCode : List Char} (h : '&' ∉ userCode) :
    (document (name.flatMap escape) requestId userCode).map Segment.shown =
      document name requestId userCode := by
  have hfixed : (pageHead ++ pageRequest ++ pageHowTo ++ pageFoot).map Segment.shown =
      pageHead ++ pageRequest ++ pageHowTo ++ pageFoot :=
    (List.map_congr_left fun s hs => (fixed_page s hs).2).trans (List.map_id _)
  simp only [List.map_append] at hfixed
  have hlengths {s : List Segment} : (s.map Segment.shown).length = s.length := List.length_map _
  obtain ⟨hthree, hfoot⟩ := List.append_inj' hfixed hlengths
  obtain ⟨htwo, hhowTo⟩ := List.append_inj' hthree hlengths
  obtain ⟨hhead, hrequest⟩ := List.append_inj' htwo hlengths
  unfold document
  simp only [List.map_append, List.map_cons]
  rw [hhead, hrequest, hhowTo, hfoot, (shown_userCode h).1, (shown_userCode h).2, Segment.shown,
    Segment.shown, decode_flatMap_escape]

/-- **The page is read as its document, with the name as text.** -/
theorem browse_consentPage (W : Web) (name : String) {requestId userCode : String}
    (hid : '"' ∉ requestId.toList) (hne : userCode.toList ≠ [])
    (hcode : '<' ∉ userCode.toList ∧ '&' ∉ userCode.toList) :
    browse (consentPage W name requestId userCode).toList =
      document (displayName W name) requestId.toList userCode.toList := by
  have hescaped : (displayName W name).flatMap escape ≠ [] := by
    obtain ⟨c, rest, hname⟩ := List.exists_cons_of_ne_nil (displayName_ne_nil W name)
    rw [hname, List.flatMap_cons]
    exact List.append_ne_nil_of_left_ne_nil (escape_ne_nil c) _
  have hcodes := whole_userCode hne hcode.1
  have hwhole : ∀ s ∈ document ((displayName W name).flatMap escape) requestId.toList userCode.toList,
      s.Whole := by
    intro s hs
    obtain hs | rfl | rfl | rfl | rfl := mem_document hs
    · exact (fixed_page s hs).1
    · exact ⟨hescaped, lt_not_mem_escape _⟩
    · exact whole_requestTag hid
    · exact hcodes.1
    · exact hcodes.2
  rw [browse, toList_consentPage, read_print hwhole (apart_document _ _ _)]
  exact map_shown_document _ _ hcode.2

/-! ## The requests of a run -/

variable {P : Platform} {S : Stdlib} {s s' : Tables}

/-- What an operation at a time does to the clients and the requests. -/
inductive Requests (now : ℤ) (s s' : Tables) : Prop
  | same : s'.clients = s.clients → s'.pending = s.pending → Requests now s s'
  | registered {client : Client} : (∀ c ∈ s.clients, c.clientId ≠ client.clientId) →
      s'.clients = s.clients ++ [client] → s'.pending = s.pending → Requests now s s'
  | collected : s'.clients = s.clients → s'.pending = (collectExpired now s).pending → Requests now s s'
  | begun {request : Pending} : (∃ client ∈ s.clients, client.clientId = request.clientId) →
      s'.clients = s.clients → s'.pending = (collectExpired now s).pending ++ [request] → Requests now s s'
  /-- An approval or a code is written to the row of a request. -/
  | written {requestId : String} {f : Pending → Pending} : (∀ p, (f p).asked = p.asked) →
      s'.clients = s.clients → s'.pending = (setPending requestId f s).pending → Requests now s s'

lemma requests_step (P : Platform) (S : Stdlib) (s : Tables) (op : OAuth.Op) :
    Requests op.time s (OAuth.step P S s op).1 := by
  cases op with
  | registerClient name uris clientId now =>
    simp only [OAuth.step]
    split
    · rename_i s' hs
      simp only [registerClient, bind_eq_ok, orStop_eq_ok, require_eq_ok, pure_eq_ok] at hs
      obtain ⟨-, -, -, -, -, -, name, -, clients, hinsert, rfl⟩ := hs
      obtain ⟨hfree, rfl⟩ := Table.insert_eq_some_iff.mp hinsert
      exact .registered hfree rfl rfl
    · exact .same rfl rfl
  | beginAuthorization r requestId userCode now =>
    simp only [OAuth.step, beginAuthorization]
    split
    · rename_i hs
      obtain ⟨request, -, -, -, -, ⟨client, hclient, hid, -⟩, rfl⟩ := insertPending_spec hs
      exact .begun ⟨client, hclient, hid⟩ rfl rfl
    · exact .collected rfl rfl
  | approve userCode now =>
    simp only [OAuth.step]
    split
    · rename_i hs
      obtain ⟨row, -, -, -, -, rfl⟩ := approve_spec hs
      exact .written (f := fun p => { p with approvedMs := some now }) (fun p => rfl) rfl rfl
    · exact .same rfl rfl
  | poll id secret now =>
    simp only [OAuth.step]
    split
    · rename_i hs
      obtain ⟨row, -, -, -, -, rfl⟩ := poll_spec hs
      exact .written (f := fun p => { p with collectedMs := some now }) (fun p => rfl) rfl rfl
    · rename_i hs
      rcases poll_eq_ok hs with ⟨-, rfl⟩ | ⟨row, -, code, hcode, -⟩
      · exact .same rfl rfl
      · cases hcode
    · exact .same rfl rfl
  | exchangeCode r grantId access refreshToken now =>
    simp only [OAuth.step]
    split
    · rename_i hs
      obtain ⟨row, -, -, -, -, hissue⟩ := exchangeCode_spec hs
      obtain ⟨-, rfl⟩ := issue_spec hissue
      exact .same rfl rfl
    · exact .same rfl rfl
  | refresh refreshToken clientId freshGrant access newRefresh now =>
    rw [step_refresh]
    rcases refresh_cases P refreshToken clientId freshGrant access newRefresh now s with
      ⟨e, heq⟩ | ⟨grantId, e, heq⟩ | ⟨row, hrow, -, pair, s', hissue, heq⟩
    · rw [heq]
      exact .same rfl rfl
    · rw [heq]
      exact .same rfl rfl
    · rw [heq]
      obtain ⟨-, rfl⟩ := issue_spec hissue
      exact .same rfl rfl
  | collectExpired now => exact .collected rfl rfl
  | revokeAll now => exact .same rfl rfl

lemma mem_setPending_of_mem {requestId : String} {f : Pending → Pending} {p : Pending} (hp : p ∈ s.pending) :
    (if p.requestId = requestId then f p else p) ∈ (setPending requestId f s).pending :=
  List.mem_map_of_mem hp

/-- Until it expires a request is kept, whatever is done. -/
lemma Requests.kept {now : ℤ} (h : Requests now s s') {row : Pending} (hlive : now < row.expiresMs)
    (hrow : ∃ p ∈ s.pending, p.asked = row) : ∃ p ∈ s'.pending, p.asked = row := by
  obtain ⟨p, hp, rfl⟩ := hrow
  have hcollected : p ∈ (collectExpired now s).pending := List.mem_filter.mpr ⟨hp, decide_eq_true hlive⟩
  cases h with
  | same _ hpending => exact ⟨p, by rwa [hpending], rfl⟩
  | registered _ _ hpending => exact ⟨p, by rwa [hpending], rfl⟩
  | collected _ hpending => exact ⟨p, by rwa [hpending], rfl⟩
  | begun _ _ hpending => exact ⟨p, by rw [hpending]; exact List.mem_append_left _ hcollected, rfl⟩
  | @written requestId f hf _ hpending =>
    refine ⟨_, by rw [hpending]; exact mem_setPending_of_mem hp, ?_⟩
    split
    · exact hf p
    · rfl

/-- What the constraints of the tables say of the clients and the requests. -/
structure Consistent (s : Tables) : Prop where
  userCode : Table.Unique Pending.userCode s.pending
  clientId : Table.Unique Client.clientId s.clients
  housed : ∀ p ∈ s.pending, ∃ client ∈ s.clients, client.clientId = p.clientId

lemma consistent_empty : Consistent .empty := ⟨List.nodup_nil, List.nodup_nil, nofun⟩

lemma Consistent.step (h : Consistent s) (op : OAuth.Op) : Consistent (OAuth.step P S s op).1 := by
  have hstep := requests_step P S s op
  refine ⟨userCode_step op h.userCode, ?_, ?_⟩
  · cases hstep with
    | registered hfree hclients _ =>
      rw [hclients]
      exact h.clientId.append hfree
    | same hclients _ => rw [hclients]; exact h.clientId
    | collected hclients _ => rw [hclients]; exact h.clientId
    | begun _ hclients _ => rw [hclients]; exact h.clientId
    | written _ hclients _ => rw [hclients]; exact h.clientId
  · intro p hp
    have hkept {q : Pending} (hq : q ∈ (collectExpired op.time s).pending) :
        ∃ client ∈ s.clients, client.clientId = q.clientId := h.housed q (List.mem_of_mem_filter hq)
    cases hstep with
    | same hclients hpending =>
      rw [hpending] at hp
      rw [hclients]
      exact h.housed p hp
    | registered _ hclients hpending =>
      rw [hpending] at hp
      obtain ⟨client, hclient, hid⟩ := h.housed p hp
      exact ⟨client, by rw [hclients]; exact List.mem_append_left _ hclient, hid⟩
    | collected hclients hpending =>
      rw [hpending] at hp
      rw [hclients]
      exact hkept hp
    | begun hclient hclients hpending =>
      rw [hpending] at hp
      rw [hclients]
      obtain hold | hnew := List.mem_append.mp hp
      · exact hkept hold
      · rwa [List.mem_singleton.mp hnew]
    | @written requestId f hf hclients hpending =>
      rw [hpending] at hp
      rw [hclients]
      obtain hold | ⟨q, hq, -, rfl⟩ := mem_setPending hp
      · exact h.housed p hold
      · have hid : (f q).clientId = q.clientId := (congrArg Pending.clientId (hf q) :)
        rw [hid]
        exact h.housed q hq

lemma consistent_run (P : Platform) (S : Stdlib) (ops : List OAuth.Op) :
    Consistent (Run.final (OAuth.step P S) .empty ops) :=
  Run.invariant (fun _ op h => h.step op) consistent_empty ops

lemma kept_run {ops : List OAuth.Op} {row : Pending} (hlive : ∀ op ∈ ops, op.time < row.expiresMs)
    (hrow : ∃ p ∈ s.pending, p.asked = row) :
    ∃ p ∈ (Run.final (OAuth.step P S) s ops).pending, p.asked = row :=
  Run.invariant_of_meets (I := fun s => ∃ p ∈ s.pending, p.asked = row)
    (fun _ op h hlive => (requests_step P S _ op).kept hlive h) hrow (Run.meets_of_forall_mem hlive s)

end WhatsVault.Http
