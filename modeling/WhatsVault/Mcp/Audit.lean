import WhatsVault.Json
import WhatsVault.Platform

/-!
# The audit trail of the tools

`guard` binds the arguments of a call, coerces them to JSON, runs the tool and records the outcome in
a `finally` block.  What it records is the keyed hash of the canonical JSON of the arguments, and
making it can fail in three places: where an argument is coerced, where the JSON is written, and
where it is encoded.  A call whose arguments stand all three leaves one row with the real outcome
(`audited_iff`); any other leaves none, and its caller sees the failure of the recording instead.
-/

namespace WhatsVault.Mcp.Audit

/-! ## Python values -/

/-- A raised exception: the name of its class, and whether `except TypeError` catches it. -/
structure PyExn where
  name : String
  isTypeError : Bool
  deriving DecidableEq

namespace PyExn

def typeError : PyExn := ⟨"TypeError", true⟩

def valueError : PyExn := ⟨"ValueError", false⟩

def recursionError : PyExn := ⟨"RecursionError", false⟩

def unicodeEncodeError : PyExn := ⟨"UnicodeEncodeError", false⟩

end PyExn

/-- A key of a dictionary; one that is neither a string nor an integer is what `str` makes of it. -/
inductive PyKey
  | str (s : PyStr)
  | int (n : ℤ)
  | other (text : Except PyExn PyStr)

/-- An argument; an object of any other type is what `repr` makes of it. -/
inductive PyValue
  | none
  | bool (b : Bool)
  | int (n : ℤ)
  | float (x : PyFloat)
  | str (s : PyStr)
  | list (items : List PyValue)
  | tuple (items : List PyValue)
  | dict (fields : List (PyKey × PyValue))
  | other (repr : Except PyExn PyStr)

/-- What the recording rests on: the longest integer that is written in decimal, how deep the stack
lets `_json_safe` and `json.dumps` recurse, the text of a JSON value, and HMAC-SHA256. -/
structure Interpreter where
  maxStrDigits : ℕ
  coerceRoom : ℕ
  dumpRoom : ℕ
  /-- `json.dumps(x, sort_keys=True, ensure_ascii=False, separators=(",", ":")).encode("utf-8")`. -/
  dumps : Json → Bytes
  hmacSha256 : Bytes → Bytes → Bytes
  dumpRoom_pos : 0 < dumpRoom

/-- Whether `str(n)` is written: beyond the limit it raises `ValueError`. -/
def Interpreter.prints (I : Interpreter) (n : ℤ) : Bool := n.natAbs < 10 ^ I.maxStrDigits

section Recording

variable (I : Interpreter)

/-- `str(k)`. -/
def keyText : PyKey → Except PyExn PyStr
  | .str s => .ok s
  | .int n => if I.prints n then .ok (.text (toString n)) else .error .valueError
  | .other text => text

/-- `d[key] = x`. -/
def setItem (fields : List (PyStr × Json)) (key : PyStr) (x : Json) : List (PyStr × Json) :=
  if key ∈ fields.map Prod.fst then
    fields.map fun field => if field.1 = key then (key, x) else field
  else fields ++ [(key, x)]

mutual
/-- `_json_safe`, with room for so many nested calls. -/
def jsonSafe : ℕ → PyValue → Except PyExn Json
  | 0, _ => .error .recursionError
  | _ + 1, .none => .ok .null
  | _ + 1, .bool b => .ok (.bool b)
  | _ + 1, .int n => .ok (.int n)
  | _ + 1, .float x => .ok (.float x)
  | _ + 1, .str s => .ok (.str s)
  | room + 1, .list items => (safeItems room items).map .arr
  | room + 1, .tuple items => (safeItems room items).map .arr
  | room + 1, .dict fields => (safeFields room fields []).map .obj
  | _ + 1, .other repr => repr.map .str

def safeItems : ℕ → List PyValue → Except PyExn (List Json)
  | _, [] => .ok []
  | room, x :: xs => do
    let x ← jsonSafe room x
    let xs ← safeItems room xs
    pure (x :: xs)

/-- The dictionary built so far goes on with `fields`. -/
def safeFields : ℕ → List (PyKey × PyValue) → List (PyStr × Json) →
    Except PyExn (List (PyStr × Json))
  | _, [], built => .ok built
  | room, (key, x) :: fields, built => do
    let key ← keyText I key
    let x ← jsonSafe room x
    safeFields room fields (setItem built key x)
end

mutual
/-- What `json.dumps` raises, with room for so many nested containers.  Of several failures it is the
first in the order of the fields, where Python goes by the sorted keys. -/
def dumpError : ℕ → Json → Option PyExn
  | _, .int n => if I.prints n then none else some .valueError
  | 0, .arr _ => some .recursionError
  | 0, .obj _ => some .recursionError
  | room + 1, .arr items => itemsError room items
  | room + 1, .obj fields => fieldsError room fields
  | _, _ => none

def itemsError : ℕ → List Json → Option PyExn
  | _, [] => none
  | room, x :: xs => (dumpError room x).or (itemsError room xs)

def fieldsError : ℕ → List (PyStr × Json) → Option PyExn
  | _, [] => none
  | room, (_, x) :: fields => (dumpError room x).or (fieldsError room fields)
end

/-- `args_hmac`. -/
def argsHmac (auditKey : Bytes) (args : Json) : Except PyExn String :=
  match dumpError I I.dumpRoom args with
  | some e => .error e
  | none =>
    if args.encodable then .ok (hex (I.hmacSha256 auditKey (I.dumps args)))
    else .error .unicodeEncodeError

/-- A row of `audit_log`. -/
structure AuditRow where
  id : String
  actor : String
  tool : String
  argsHash : String
  outcome : String
  tsMs : ℤ
  deriving DecidableEq

/-- `record`, with the id it draws: the log after it, or what it raises before it inserts. -/
def record (auditKey : Bytes) (id : String) (tool : String) (args : Json) (outcome : String)
    (nowMs : ℤ) (log : List AuditRow) : Except PyExn (List AuditRow) := do
  let argsHash ← argsHmac I auditKey args
  pure (log ++ [⟨id, "mcp", tool, argsHash, outcome, nowMs⟩])

/-! ## The registered tools -/

inductive Tool
  | search
  | getMessages
  | listChats
  | getMessageStatus
  | getConversationWindow
  | listTemplates
  deriving DecidableEq

def Tool.name : Tool → String
  | search => "search"
  | getMessages => "get_messages"
  | listChats => "list_chats"
  | getMessageStatus => "get_message_status"
  | getConversationWindow => "get_conversation_window"
  | listTemplates => "list_templates"

/-- The parameters of a handler, each with whether it must be given. -/
def Tool.parameters : Tool → List (String × Bool)
  | search =>
    [("q", true), ("conversation_id", false), ("direction", false), ("from_ms", false),
      ("to_ms", false), ("limit", false)]
  | getMessages =>
    [("conversation_id", true), ("from_ms", false), ("to_ms", false), ("limit", false)]
  | listChats => [("query", false), ("limit", false)]
  | getMessageStatus => [("message_id", true)]
  | getConversationWindow => [("conversation_id", true)]
  | listTemplates => []

/-- `*args, **kwargs`. -/
structure Arguments where
  positional : List PyValue
  keywords : List (String × PyValue)

/-- `inspect.signature(fn).bind(*args, **kwargs).arguments`; `none` is the `TypeError` that binding
and the call itself raise alike. -/
def bind (tool : Tool) (args : Arguments) : Option (List (String × PyValue)) :=
  let names := tool.parameters.map Prod.fst
  let rest := tool.parameters.drop args.positional.length
  if names.length < args.positional.length then none
  else if ∃ keyword ∈ args.keywords, keyword.1 ∉ rest.map Prod.fst then none
  else if ∃ parameter ∈ rest, parameter.2 = true ∧ parameter.1 ∉ args.keywords.map Prod.fst then none
  else some (names.zip args.positional ++ rest.filterMap fun parameter =>
    (args.keywords.lookup parameter.1).map fun x => (parameter.1, x))

/-! ## The guard -/

/-- What is recorded of arguments that cannot be bound. -/
def unbindable : Json := .obj [(.text "_wv_unbindable", .bool true)]

/-- What `_run` records of the arguments, or the exception that leaves it before the tool runs. -/
def recorded (tool : Tool) (args : Arguments) : Except PyExn Json :=
  match bind tool args with
  | none => .ok unbindable
  | some bound =>
    match jsonSafe I I.coerceRoom (.dict (bound.map fun (name, x) => (.str (.text name), x))) with
    | .ok x => .ok x
    | .error e => if e.isTypeError then .ok unbindable else .error e

variable {α : Type}

/-- `fn(*args, **kwargs)`, where the tool does `body` with its bound arguments. -/
def callTool (tool : Tool) (body : List (String × PyValue) → Except PyExn α) (args : Arguments) :
    Except PyExn α :=
  match bind tool args with
  | none => .error .typeError
  | some bound => body bound

def outcomeText : Except PyExn α → String
  | .ok _ => "ok"
  | .error e => "error:" ++ e.name

/-- `_run`: what the caller gets, and the audit log after it.  The recording is in a `finally` block:
what it raises takes the place of what the tool gave. -/
def run (auditKey : Bytes) (id : String) (nowMs : ℤ) (tool : Tool)
    (body : List (String × PyValue) → Except PyExn α) (args : Arguments) (log : List AuditRow) :
    Except PyExn α × List AuditRow :=
  match recorded I tool args with
  | .error e => (.error e, log)
  | .ok json =>
    let result := callTool tool body args
    match record I auditKey id tool.name json (outcomeText result) nowMs log with
    | .error e => (.error e, log)
    | .ok log' => (result, log')

/-! ## What is recorded -/

/-- A call left one row more, which tells its outcome, and handed the outcome on. -/
def Audited (tool : Tool) (outcome : Except PyExn α) (log : List AuditRow)
    (after : Except PyExn α × List AuditRow) : Prop :=
  ∃ row : AuditRow, after.2 = log ++ [row] ∧ row.tool = tool.name ∧
    (row.outcome = "ok" ↔ ∃ a, outcome = .ok a) ∧
    (∀ e, outcome = .error e → row.outcome = "error:" ++ e.name) ∧ after.1 = outcome

/-- The arguments of a call can be recorded: they cannot be bound, or coercing them raises at most a
`TypeError`, or what they coerce to holds no integer too long to write, is nested no deeper than the
stack has room for, and holds no lone surrogate. -/
def Recordable (tool : Tool) (args : Arguments) : Prop :=
  ∀ bound, bind tool args = some bound →
    (∀ e, jsonSafe I I.coerceRoom (.dict (bound.map fun (name, x) => (.str (.text name), x))) =
      .error e → e.isTypeError = true) ∧
    ∀ x, jsonSafe I I.coerceRoom (.dict (bound.map fun (name, x) => (.str (.text name), x))) =
      .ok x → dumpError I I.dumpRoom x = none ∧ x.encodable = true

/-- A value the audit log takes. -/
def Writable (x : Json) : Prop := dumpError I I.dumpRoom x = none ∧ x.encodable = true

lemma writable_unbindable : Writable I unbindable := by
  obtain ⟨room, hroom⟩ : ∃ room, I.dumpRoom = room + 1 :=
    ⟨I.dumpRoom - 1, by have := I.dumpRoom_pos; omega⟩
  constructor
  · rw [hroom]
    rfl
  · rfl

variable {I}

lemma argsHmac_isOk_iff {auditKey : Bytes} {x : Json} :
    (∃ h, argsHmac I auditKey x = .ok h) ↔ Writable I x := by
  unfold argsHmac Writable
  cases dumpError I I.dumpRoom x with
  | some e => simp
  | none => by_cases hencodable : x.encodable = true <;> simp [hencodable]

/-- What is recorded can be written exactly where the arguments can be recorded. -/
lemma recorded_iff {tool : Tool} {args : Arguments} :
    (∃ x, recorded I tool args = .ok x ∧ Writable I x) ↔ Recordable I tool args := by
  unfold recorded Recordable
  cases hbound : bind tool args with
  | none => simp [writable_unbindable]
  | some bound =>
    simp only [Option.some.injEq, forall_eq']
    cases hsafe : jsonSafe I I.coerceRoom
        (.dict (bound.map fun (name, x) => (.str (.text name), x))) with
    | ok x => simp [Writable]
    | error e => cases he : e.isTypeError <;> simp [he, writable_unbindable]

lemma outcomeText_eq_ok {result : Except PyExn α} : outcomeText result = "ok" ↔ ∃ a, result = .ok a := by
  cases result with
  | ok a => simp [outcomeText]
  | error e =>
    have hne : "error:" ++ e.name ≠ "ok" := by
      intro h
      have hlength := congrArg String.length h
      simp only [String.length_append] at hlength
      have herror : "error:".length = 6 := rfl
      have hok : "ok".length = 2 := rfl
      omega
    simp [outcomeText, hne]

/-- **When a call is audited.**  A call of a tool leaves exactly one row with its real outcome, and
gives its caller that outcome, exactly when its arguments can be recorded. -/
theorem audited_iff (I : Interpreter) (auditKey : Bytes) (id : String) (nowMs : ℤ) (tool : Tool)
    (body : List (String × PyValue) → Except PyExn α) (args : Arguments) (log : List AuditRow) :
    Audited tool (callTool tool body args) log (run I auditKey id nowMs tool body args log) ↔
      Recordable I tool args := by
  rw [← recorded_iff]
  unfold run
  cases hrecorded : recorded I tool args with
  | error e => simp [Audited]
  | ok x =>
    simp only [Except.ok.injEq, exists_eq_left']
    have hwritable : (∃ h, argsHmac I auditKey x = .ok h) ↔ Writable I x := argsHmac_isOk_iff
    rw [← hwritable]
    cases hhash : argsHmac I auditKey x with
    | error e => simp [record, hhash, Audited, Bind.bind, Except.bind]
    | ok hash =>
      simp only [record, hhash]
      refine iff_of_true ⟨⟨id, "mcp", tool.name, hash, outcomeText (callTool tool body args), nowMs⟩,
        rfl, rfl, outcomeText_eq_ok, ?_, rfl⟩ ⟨hash, rfl⟩
      intro e he
      rw [he]
      rfl

/-- `"\ud800"`. -/
def surrogate : PyStr := .lone [0xD800] ⟨0xD800, by decide⟩

/-- The arguments of `get_message_status("\ud800")`. -/
def surrogateArguments : Arguments := ⟨[.str surrogate], []⟩

/-- CPython's limits, with a hash that nothing is asked of. -/
def interpreterExample : Interpreter := ⟨4300, 1000, 1000, fun _ => [], fun _ _ => [], by decide⟩

/-- A call whose message id is a lone surrogate leaves no row: the database refuses the id, and the
recording of that failure fails on the same text. -/
theorem surrogate_unaudited :
    ¬ Audited .getMessageStatus
      (callTool .getMessageStatus (fun _ => (.error .unicodeEncodeError : Except PyExn Unit))
        surrogateArguments) []
      (run interpreterExample [] "aud_1" 0 .getMessageStatus (fun _ => .error .unicodeEncodeError)
        surrogateArguments []) := by
  have hbind : bind .getMessageStatus surrogateArguments =
      some [("message_id", .str surrogate)] := rfl
  have hsafe : jsonSafe interpreterExample 1000
      (.dict [(.str (.text "message_id"), .str surrogate)]) =
      .ok (.obj [(.text "message_id", .str surrogate)]) := by
    simp [jsonSafe, safeFields, keyText, setItem, Bind.bind, Except.bind, Except.map]
  have hrun : (run interpreterExample [] "aud_1" 0 .getMessageStatus
      (fun _ => (.error .unicodeEncodeError : Except PyExn Unit)) surrogateArguments []).2 = [] := by
    have hrecorded : recorded interpreterExample .getMessageStatus surrogateArguments =
        .ok (.obj [(.text "message_id", .str surrogate)]) := by
      have hroom : interpreterExample.coerceRoom = 1000 := rfl
      simp only [recorded, hbind, List.map_cons, List.map_nil]
      rw [hroom, hsafe]
    have hhash : argsHmac interpreterExample []
        (.obj [(.text "message_id", .str surrogate)]) =
        .error .unicodeEncodeError := by
      have hroom : interpreterExample.dumpRoom = 1000 := rfl
      simp [argsHmac, hroom, dumpError, fieldsError, Json.encodable, Json.encodableFields,
        surrogate, PyStr.encode]
    simp [run, hrecorded, record, hhash, Bind.bind, Except.bind]
  rintro ⟨row, hrow, -⟩
  rw [hrun] at hrow
  cases hrow

/-! ## Arguments that are recorded -/

/-- A value nested at most so deep, of text, of integers that are written and of objects whose `repr`
is text. -/
inductive Plain (I : Interpreter) : ℕ → PyValue → Prop
  | none (depth : ℕ) : Plain I depth .none
  | bool (depth : ℕ) (b : Bool) : Plain I depth (.bool b)
  | int (depth : ℕ) {n : ℤ} (h : I.prints n = true) : Plain I depth (.int n)
  | float (depth : ℕ) (x : PyFloat) : Plain I depth (.float x)
  | str (depth : ℕ) (s : String) : Plain I depth (.str (.text s))
  | list {depth : ℕ} {items : List PyValue} (h : ∀ x ∈ items, Plain I depth x) :
    Plain I (depth + 1) (.list items)
  | tuple {depth : ℕ} {items : List PyValue} (h : ∀ x ∈ items, Plain I depth x) :
    Plain I (depth + 1) (.tuple items)
  | dict {depth : ℕ} {fields : List (PyKey × PyValue)}
    (hkeys : ∀ field ∈ fields, ∃ s : String, keyText I field.1 = .ok (.text s))
    (h : ∀ field ∈ fields, Plain I depth field.2) : Plain I (depth + 1) (.dict fields)
  | other (depth : ℕ) (s : String) : Plain I depth (.other (.ok (.text s)))

/-- A JSON value that is written where so many containers may be nested. -/
def WritableIn (I : Interpreter) (depth : ℕ) (x : Json) : Prop :=
  (∀ room, depth ≤ room → dumpError I room x = none) ∧ x.encodable = true

section

variable {I : Interpreter} {depth room : ℕ}

lemma safeItems_of_forall {items : List PyValue}
    (h : ∀ x ∈ items, ∃ y, jsonSafe I room x = .ok y ∧ WritableIn I depth y) :
    ∃ ys, safeItems I room items = .ok ys ∧ ∀ y ∈ ys, WritableIn I depth y := by
  induction items with
  | nil => exact ⟨[], by simp [safeItems], by simp⟩
  | cons x xs ih =>
    obtain ⟨y, hy, hwritable⟩ := h x List.mem_cons_self
    obtain ⟨ys, hys, hall⟩ := ih fun x' hx' => h x' (List.mem_cons_of_mem _ hx')
    refine ⟨y :: ys, by simp [safeItems, hy, hys, Bind.bind, Except.bind, Pure.pure, Except.pure], ?_⟩
    simpa using ⟨hwritable, hall⟩

/-- The fields of a dictionary: each has a text for its key and is written. -/
def FieldsIn (I : Interpreter) (depth : ℕ) (fields : List (PyStr × Json)) : Prop :=
  ∀ field ∈ fields, (∃ s : String, field.1 = .text s) ∧ WritableIn I depth field.2

lemma FieldsIn.setItem {fields : List (PyStr × Json)} {s : String} {y : Json}
    (h : FieldsIn I depth fields) (hy : WritableIn I depth y) :
    FieldsIn I depth (setItem fields (.text s) y) := by
  unfold Audit.setItem
  intro field hfield
  split at hfield
  · obtain ⟨old, hold, rfl⟩ := List.mem_map.mp hfield
    split
    · exact ⟨⟨s, rfl⟩, hy⟩
    · exact h old hold
  · rcases List.mem_append.mp hfield with hold | hnew
    · exact h field hold
    · rw [List.mem_singleton] at hnew
      subst hnew
      exact ⟨⟨s, rfl⟩, hy⟩

lemma safeFields_of_forall {fields : List (PyKey × PyValue)} {built : List (PyStr × Json)}
    (hkeys : ∀ field ∈ fields, ∃ s : String, keyText I field.1 = .ok (.text s))
    (h : ∀ field ∈ fields, ∃ y, jsonSafe I room field.2 = .ok y ∧ WritableIn I depth y)
    (hbuilt : FieldsIn I depth built) :
    ∃ out, safeFields I room fields built = .ok out ∧ FieldsIn I depth out := by
  induction fields generalizing built with
  | nil => exact ⟨built, by simp [safeFields], hbuilt⟩
  | cons field fields ih =>
    obtain ⟨s, hs⟩ := hkeys field List.mem_cons_self
    obtain ⟨y, hy, hwritable⟩ := h field List.mem_cons_self
    obtain ⟨out, hout, hall⟩ := ih (fun f hf => hkeys f (List.mem_cons_of_mem _ hf))
      (fun f hf => h f (List.mem_cons_of_mem _ hf)) (hbuilt.setItem hwritable)
    refine ⟨out, ?_, hall⟩
    obtain ⟨key, x⟩ := field
    simp only [safeFields, hs, hy, Bind.bind, Except.bind]
    exact hout

lemma writableIn_arr {items : List Json} (h : ∀ x ∈ items, WritableIn I depth x) :
    WritableIn I (depth + 1) (.arr items) := by
  constructor
  · intro room hroom
    obtain ⟨room, rfl⟩ : ∃ room', room = room' + 1 := ⟨room - 1, by omega⟩
    have hitems : itemsError I room items = none := by
      induction items with
      | nil => simp [itemsError]
      | cons x xs ih =>
        have hx := (h x List.mem_cons_self).1 room (by omega)
        have hxs := ih fun x' hx' => h x' (List.mem_cons_of_mem _ hx')
        simp [itemsError, hx, hxs]
    simpa [dumpError] using hitems
  · have hitems : Json.encodableItems items = true := by
      induction items with
      | nil => simp [Json.encodableItems]
      | cons x xs ih =>
        have hx := (h x List.mem_cons_self).2
        have hxs := ih fun x' hx' => h x' (List.mem_cons_of_mem _ hx')
        simp [Json.encodableItems, hx, hxs]
    simpa [Json.encodable] using hitems

lemma writableIn_obj {fields : List (PyStr × Json)} (h : FieldsIn I depth fields) :
    WritableIn I (depth + 1) (.obj fields) := by
  constructor
  · intro room hroom
    obtain ⟨room, rfl⟩ : ∃ room', room = room' + 1 := ⟨room - 1, by omega⟩
    have hfields : fieldsError I room fields = none := by
      induction fields with
      | nil => simp [fieldsError]
      | cons field fields ih =>
        have hfield := (h field List.mem_cons_self).2.1 room (by omega)
        have htail := ih fun f hf => h f (List.mem_cons_of_mem _ hf)
        simp [fieldsError, hfield, htail]
    simpa [dumpError] using hfields
  · have hfields : Json.encodableFields fields = true := by
      induction fields with
      | nil => simp [Json.encodableFields]
      | cons field fields ih =>
        obtain ⟨⟨s, hs⟩, hfield⟩ := h field List.mem_cons_self
        have htail := ih fun f hf => h f (List.mem_cons_of_mem _ hf)
        simp [Json.encodableFields, hs, hfield.2, htail, PyStr.encode]
    simpa [Json.encodable] using hfields

/-- A plain value is coerced, and what it is coerced to is written. -/
lemma Plain.jsonSafe {x : PyValue} (h : Plain I depth x) :
    ∀ room, ∃ y, Audit.jsonSafe I (depth + room + 1) x = .ok y ∧ WritableIn I depth y := by
  induction h with
  | none =>
    intro room
    exact ⟨.null, by simp [Audit.jsonSafe], by simp [WritableIn, dumpError, Json.encodable]⟩
  | bool _ b =>
    intro room
    exact ⟨.bool b, by simp [Audit.jsonSafe], by simp [WritableIn, dumpError, Json.encodable]⟩
  | @int _ n hprints =>
    intro room
    exact ⟨.int n, by simp [Audit.jsonSafe], by simp [WritableIn, dumpError, hprints, Json.encodable]⟩
  | float _ x =>
    intro room
    exact ⟨.float x, by simp [Audit.jsonSafe], by simp [WritableIn, dumpError, Json.encodable]⟩
  | str _ s =>
    intro room
    exact ⟨.str (.text s), by simp [Audit.jsonSafe],
      by simp [WritableIn, dumpError, Json.encodable, PyStr.encode]⟩
  | @list depth _ _ ih =>
    intro room
    rw [Nat.add_right_comm depth 1 room]
    obtain ⟨ys, hys, hall⟩ := safeItems_of_forall fun x hx => ih x hx room
    exact ⟨.arr ys, by simp [Audit.jsonSafe, hys, Except.map], writableIn_arr hall⟩
  | @tuple depth _ _ ih =>
    intro room
    rw [Nat.add_right_comm depth 1 room]
    obtain ⟨ys, hys, hall⟩ := safeItems_of_forall fun x hx => ih x hx room
    exact ⟨.arr ys, by simp [Audit.jsonSafe, hys, Except.map], writableIn_arr hall⟩
  | @dict depth _ hkeys _ ih =>
    intro room
    rw [Nat.add_right_comm depth 1 room]
    have hempty : FieldsIn I depth [] := by simp [FieldsIn]
    obtain ⟨out, hout, hall⟩ := safeFields_of_forall hkeys
      (fun field hfield => ih field hfield room) hempty
    exact ⟨.obj out, by simp [Audit.jsonSafe, hout, Except.map], writableIn_obj hall⟩
  | other _ s =>
    intro room
    exact ⟨.str (.text s), by simp [Audit.jsonSafe, Except.map],
      by simp [WritableIn, dumpError, Json.encodable, PyStr.encode]⟩

/-- A call with plain arguments, nested less deep than the stack has room for, is recorded. -/
lemma recordable_of_plain {tool : Tool} {args : Arguments}
    (hcoerce : depth + 1 < I.coerceRoom) (hdump : depth + 1 ≤ I.dumpRoom)
    (h : ∀ bound, bind tool args = some bound → ∀ field ∈ bound, Plain I depth field.2) :
    Recordable I tool args := by
  intro bound hbound
  have hplain : Plain I (depth + 1)
      (.dict (bound.map fun (name, x) => (.str (.text name), x))) := by
    apply Plain.dict
    · intro field hfield
      obtain ⟨⟨name, x⟩, -, rfl⟩ := List.mem_map.mp hfield
      exact ⟨name, rfl⟩
    · intro field hfield
      obtain ⟨old, hold, rfl⟩ := List.mem_map.mp hfield
      exact h bound hbound old hold
  obtain ⟨room, hroom⟩ : ∃ room, I.coerceRoom = depth + 1 + room + 1 :=
    ⟨I.coerceRoom - depth - 2, by omega⟩
  obtain ⟨y, hy, hdumps, hencodable⟩ := hplain.jsonSafe room
  rw [← hroom] at hy
  constructor
  · intro e he
    rw [hy] at he
    cases he
  · intro x hx
    rw [hy] at hx
    cases hx
    exact ⟨hdumps _ hdump, hencodable⟩

end

end Recording

end WhatsVault.Mcp.Audit
