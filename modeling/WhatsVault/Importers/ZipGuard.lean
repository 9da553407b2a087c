import Mathlib.Data.Rat.Floor
import WhatsVault.Library.FileTree
import WhatsVault.Library.Program
import WhatsVault.Text

/-!
# Hostile archives

`safe_extract` writes the entries of a ZIP archive below a directory of its own.  Nothing in the
archive is to be believed: not the names, not the attributes, not the declared sizes.  Before an entry
is opened its name is read as text and resolved as a path, and while it is written the bytes that come
out of it are counted.

The model has all that the code asks of the system as a parameter: what it refuses to make, to open or
to take, and what the archive gives when it is read.  A run is observed at every state it passes
through, so what is proved holds at every point of it, however it ends (`safeExtract_inBox`).
-/

namespace WhatsVault.Importers.ZipGuard

open Paths Program

/-! ## Archives -/

/-- What is raised: `HostileZip` with its code, or an exception of the library or of the system. -/
inductive ZipError
  | hostile (code : String) (message : PyStr)
  | other (name : String)
  deriving DecidableEq

/-- `HostileZip(code, message)`. -/
def hostileZip (code : String) (message : PyStr) : ZipError :=
  .hostile code (if message.truthy then message else .text code)

/-- An entry as the archive declares it, and what reading it gives. -/
structure ZipInfo where
  filename : PyStr
  externalAttr : ℕ
  fileSize : ℕ
  compressSize : ℕ
  /-- What `zf.open` raises. -/
  openError : Option ZipError
  /-- What the reads return, one after the other. -/
  reads : List Bytes
  /-- What the read after them raises. -/
  readError : Option ZipError

structure Limits where
  maxFiles : ℤ
  maxTotalBytes : ℤ
  maxRatio : ℤ
  maxFileBytes : ℤ

/-! ## The system -/

/-- The file tree, the entries opened for writing with the resolved path that was opened, and what
was written where. -/
structure World where
  tree : FileTree UInt8
  opened : List (ZipInfo × List Text)
  writes : List (List Text × Bytes)

def World.bytesWritten (w : World) : ℕ := (w.writes.map fun write => write.2.length).sum

/-- What the system refuses, and what `os.path.realpath` makes of a path that goes in a loop. -/
structure System where
  realpathError : World → Text → Option ZipError
  unresolved : World → Text → List Text
  mkdirError : World → List Text → Option ZipError
  chmodError : World → Text → Option ZipError
  openError : World → List Text → Option ZipError
  /-- How many bytes of a write are taken before it raises. -/
  writeError : World → List Text → Bytes → Option (ℕ × ZipError)

def World.mkdir (p : List Text) (w : World) : World :=
  { w with tree := w.tree.put p .dir Node.isPlain_dir }

def World.open (info : ZipInfo) (p : List Text) (w : World) : World :=
  { w with
    tree := w.tree.put p (.file []) (Node.isPlain_file [])
    opened := w.opened ++ [(info, p)] }

def World.write (p : List Text) (chunk : Bytes) (w : World) : World :=
  { w with
    tree := w.tree.put p (.file ((w.tree.contents p) ++ chunk)) (Node.isPlain_file _)
    writes := w.writes ++ [(p, chunk)] }

section Extraction

variable (S : System)

/-- `os.path.realpath`. -/
def realpath (path : Text) : Program World ZipError Text := do
  let w ← now
  match S.realpathError w path with
  | some e => raise e
  | none => pure (render ((w.tree.resolve path).getD (S.unresolved w path)))

/-- One directory of `os.makedirs`: it is made, or is there. -/
def makeStep (start : List Text) (front : List (Step Text)) (s : Step Text) :
    Program World ZipError PUnit := do
  let w ← now
  match w.tree.mkdirTarget start front s with
  | none => refuseIf (w.tree.isDir start (front ++ [s]) = false) (.other "FileExistsError")
  | some p =>
    match S.mkdirError w p with
    | some e => raise e
    | none => change (World.mkdir p)

def makeSteps (start : List Text) : List (Step Text) → List (Step Text) →
    Program World ZipError PUnit
  | _, [] => pure ⟨⟩
  | front, s :: rest => do
    makeStep S start front s
    makeSteps start (front ++ [s]) rest

/-- `os.makedirs(path, exist_ok=True)`. -/
def makedirs (path : Text) : Program World ZipError PUnit := do
  refuseIf (path = []) (.other "FileNotFoundError")
  let w ← now
  makeSteps S (w.tree.start path) [] (steps path)

/-- `os.chmod(path, 0o700)`; the modes of the tree are not modelled. -/
def chmod (path : Text) : Program World ZipError PUnit := do
  let w ← now
  match S.chmodError w path with
  | some e => raise e
  | none => pure ⟨⟩

/-- `os.path.dirname`. -/
def dirname (path : Text) : Text :=
  let head := (path.reverse.dropWhile (· ≠ sep)).reverse
  if head.all (· = sep) then head else (head.reverse.dropWhile (· = sep)).reverse

/-! ## The guard -/

/-- `'\\'`. -/
def backslash : ℕ := 92

/-- `_DRIVE_RE.match(name)`. -/
def hasDrive : Text → Bool
  | letter :: 58 :: _ => (65 ≤ letter ∧ letter ≤ 90) ∨ (97 ≤ letter ∧ letter ≤ 122)
  | _ => false

/-- `_is_unsafe_name`. -/
def isUnsafeName (name : Text) : Bool :=
  if name = [] then true
  else if (name.head? = some sep ∨ name.head? = some backslash) ∨ backslash ∈ name then true
  else if hasDrive name then true
  else [dot, dot] ∈ name.splitOn sep

/-- `stat.S_ISLNK(info.external_attr >> 16)`. -/
def isLink (info : ZipInfo) : Bool := (info.externalAttr >>> 16) &&& 0o170000 = 0o120000

/-- The nearest integer, the even one of two. -/
def roundEven (x : ℚ) : ℤ :=
  let n := ⌊x⌋
  if x - n < 1 / 2 then n
  else if 1 / 2 < x - n then n + 1
  else if n % 2 = 0 then n
  else n + 1

/-- `a / b` of two sizes: the nearest number with 53 binary digits. -/
def trueDiv (a b : ℕ) : ℚ :=
  let x : ℚ := a / b
  let bits : ℤ := (Nat.log2 a : ℤ) - Nat.log2 b
  let scale : ℤ := if (2 : ℚ) ^ bits ≤ x then 52 - bits else 53 - bits
  roundEven (x * 2 ^ scale) / 2 ^ scale

/-- `zf.open(info)` and `open(target, "wb")`; it gives the resolved path of what was opened. -/
def openEntry (info : ZipInfo) (target : Text) : Program World ZipError (List Text) :=
  match info.openError with
  | some e => raise e
  | none => do
    let w ← now
    match w.tree.openTarget target with
    | none => raise (.other "OSError")
    | some p =>
      match S.openError w p with
      | some e => raise e
      | none => do
        change (World.open info p)
        pure p

/-- `dst.write(chunk)`. -/
def write (p : List Text) (chunk : Bytes) : Program World ZipError PUnit := do
  let w ← now
  match S.writeError w p chunk with
  | none => change (World.write p chunk)
  | some (taken, e) => do
    change (World.write p (chunk.take taken))
    raise e

/-- The loop over the chunks of an entry, with the total before it and after it. -/
def copy (limits : Limits) (info : ZipInfo) (p : List Text) :
    List Bytes → ℕ → Program World ZipError ℕ
  | [], total =>
    match info.readError with
    | some e => raise e
    | none => pure total
  | chunk :: chunks, total =>
    if chunk = [] then pure total
    else do
      let total := total + chunk.length
      refuseIf (limits.maxTotalBytes < total) (hostileZip "TOO_LARGE" info.filename)
      write S p chunk
      copy limits info p chunks total

/-- The body of the loop over the entries, with the total and the paths so far. -/
def extractEntry (limits : Limits) (destDir destReal : Text) (sofar : ℕ × List Text)
    (info : ZipInfo) : Program World ZipError (ℕ × List Text) := do
  let name := info.filename.codes
  refuseIf (isLink info = true) (hostileZip "SYMLINK" info.filename)
  refuseIf (isUnsafeName name = true) (hostileZip "TRAVERSAL" info.filename)
  let target ← realpath S (join destDir name)
  refuseIf (target ≠ destReal ∧ (destReal ++ [sep]).isPrefixOf target = false)
    (hostileZip "TRAVERSAL" info.filename)
  if name.getLast? = some sep then pure sofar
  else do
    refuseIf (limits.maxFileBytes < info.fileSize) (hostileZip "FILE_TOO_LARGE" info.filename)
    refuseIf (0 < info.compressSize ∧ limits.maxRatio < trueDiv info.fileSize info.compressSize)
      (hostileZip "RATIO" info.filename)
    makedirs S (if dirname target = [] then destDir else dirname target)
    let p ← openEntry S info target
    let total ← copy S limits info p info.reads sofar.1
    pure (total, sofar.2 ++ [target])

/-- `zipfile.ZipFile(zip_path).infolist()`. -/
def infolist (archive : Except ZipError (List ZipInfo)) : Program World ZipError (List ZipInfo) :=
  match archive with
  | .error e => raise e
  | .ok infos => pure infos

/-- `safe_extract`. -/
def safeExtract (limits : Limits) (destDir : Text) (archive : Except ZipError (List ZipInfo)) :
    Program World ZipError (List Text) := do
  makedirs S destDir
  chmod S destDir
  let destReal ← realpath S destDir
  let infos ← infolist archive
  refuseIf (limits.maxFiles < infos.length)
    (hostileZip "TOO_MANY"
      (.text (toString infos.length ++ " entries > " ++ toString limits.maxFiles)))
  let extracted ← infos.foldlM (extractEntry S limits destDir destReal) (0, [])
  pure extracted.2

end Extraction

/-! ## The box -/

/-- Nothing below where `destDir` leads is a symbolic link. -/
def NoLinksIn (t : FileTree UInt8) (destDir : Text) : Prop :=
  ∀ dest, t.resolve destDir = some dest → ∀ names, names ≠ [] → t.links (dest ++ names) = none

/-- A state of a run that began with the tree `t`: what was opened is strictly inside `destDir` and no
symbolic link, what was written was written there, and neither is more than the limits say; a limit
below zero lets nothing through. -/
structure InBox (limits : Limits) (t : FileTree UInt8) (destDir : Text) (w : World) : Prop where
  inside : ∀ o ∈ w.opened, ∃ dest name names,
    t.resolve destDir = some dest ∧ o.2 = dest ++ name :: names
  regular : ∀ o ∈ w.opened, isLink o.1 = false
  writes : ∀ write ∈ w.writes, ∃ o ∈ w.opened, o.2 = write.1
  files : w.opened.length ≤ limits.maxFiles.toNat
  bytes : w.bytesWritten ≤ limits.maxTotalBytes.toNat
  links : w.tree.links = t.links

/-- The invariant of a run: its states are in the box, and no path of the tree leads elsewhere. -/
structure Safe (limits : Limits) (t : FileTree UInt8) (destDir : Text) (w : World) : Prop
    extends InBox limits t destDir w where
  tree : FileTree.Extends t w.tree

section Steps

variable {S : System} {limits : Limits} {t : FileTree UInt8} {destDir : Text} {w : World}
  {p : List Text}

lemma Safe.mkdir (h : Safe limits t destDir w) (hlink : w.tree.links p = none)
    (hdir : w.tree.isDirAt p = false) : Safe limits t destDir (w.mkdir p) where
  inside := h.inside
  regular := h.regular
  writes := h.writes
  files := h.files
  bytes := h.bytes
  links := (FileTree.links_put Node.isPlain_dir hlink).trans h.links
  tree := h.tree.trans (FileTree.extends_put Node.isPlain_dir hlink hdir)

/-! ### Making directories -/

/-- What a directory made in an empty place leaves true. -/
def Unmoved (P : World → Prop) : Prop :=
  ∀ w p, w.tree.links p = none → w.tree.isDirAt p = false → P w → P (w.mkdir p)

variable {P : World → Prop}

lemma makeStep_spec (hP : Unmoved P) (start : List Text) (front : List (Step Text))
    (s : Step Text) :
    Triple (Safe limits t destDir) P (makeStep S start front s) fun _ w =>
      P w ∧ w.tree.isDir start (front ++ [s]) = true := by
  unfold makeStep
  refine Triple.now_bind fun w hw hPw => ?_
  cases htarget : w.tree.mkdirTarget start front s with
  | none =>
    refine Triple.refuseIf.post ?_
    rintro _ _ _ ⟨rfl, hdir⟩
    exact ⟨hPw, by simpa using hdir⟩
  | some p =>
    obtain ⟨hlink, hdir⟩ := FileTree.mkdirTarget_spec htarget
    dsimp only
    cases S.mkdirError w p with
    | some e => exact Triple.raise
    | none =>
      refine Triple.change ?_ ?_
      · rintro _ hsafe rfl
        exact hsafe.mkdir hlink hdir
      · rintro _ _ rfl
        exact ⟨hP _ p hlink hdir hPw, FileTree.isDir_mkdir htarget⟩

lemma makeSteps_spec (hP : Unmoved P) (start : List Text) (front ss : List (Step Text)) :
    Triple (Safe limits t destDir) (fun w => P w ∧ w.tree.isDir start front = true)
      (makeSteps S start front ss) fun _ w => P w ∧ w.tree.isDir start (front ++ ss) = true := by
  induction ss generalizing front with
  | nil =>
    rw [List.append_nil]
    exact Triple.pure fun _ _ h => h
  | cons s ss ih =>
    unfold makeSteps
    refine Triple.bind ((makeStep_spec hP start front s).pre fun _ _ h => h.1) fun _ => ?_
    simpa using ih (front ++ [s])

/-- After `os.makedirs` its path leads to a directory. -/
lemma makedirs_spec (hP : Unmoved P) (path : Text) :
    Triple (Safe limits t destDir) P (makedirs S path) fun _ w =>
      P w ∧ (t.resolve path).any w.tree.isDirAt = true := by
  unfold makedirs
  refine Triple.refuseIf_bind fun _ => Triple.now_bind fun w hw hPw => ?_
  obtain ⟨s, ss, hsteps⟩ : ∃ s ss, steps path = s :: ss := by
    apply List.exists_cons_of_ne_nil
    simp [steps]
  rw [hsteps]
  unfold makeSteps
  have hfirst : Triple (Safe limits t destDir) P (makeStep S (w.tree.start path) [] s) fun _ w' =>
      P w' ∧ w'.tree.isDir (w.tree.start path) [s] = true :=
    makeStep_spec hP (w.tree.start path) [] s
  refine Triple.bind (hfirst.pre (by rintro _ _ rfl; exact hPw)) fun _ => ?_
  refine (makeSteps_spec hP (w.tree.start path) [s] ss).post ?_
  rintro _ w' hw' ⟨hPw', hdir⟩
  refine ⟨hPw', ?_⟩
  rw [hw.tree.start_eq, ← hw'.tree.start_eq, List.singleton_append, ← hsteps] at hdir
  rwa [FileTree.isDir_steps, hw'.tree.resolve_eq] at hdir

/-- Where a path resolves, `os.path.realpath` is the text of what it resolves to. -/
lemma realpath_spec (path : Text) :
    Triple (Safe limits t destDir) P (realpath S path) fun target w =>
      P w ∧ ∀ q, t.resolve path = some q → target = render q := by
  unfold realpath
  refine Triple.now_bind fun w hw hPw => ?_
  cases S.realpathError w path with
  | some e => exact Triple.raise
  | none =>
    refine Triple.pure ?_
    rintro _ _ rfl
    refine ⟨hPw, fun q hq => ?_⟩
    rw [hw.tree.resolve_eq, hq, Option.getD_some]

lemma chmod_spec (path : Text) : Triple (Safe limits t destDir) P (chmod S path) fun _ w => P w := by
  unfold chmod
  refine Triple.now_bind fun w hw hPw => ?_
  cases S.chmodError w path with
  | some e => exact Triple.raise
  | none =>
    refine Triple.pure ?_
    rintro _ _ rfl
    exact hPw

/-! ### Names -/

lemma isAbs_of_safeName {name : Text} (h : isUnsafeName name = false) : isAbs name = false := by
  unfold isUnsafeName at h
  split at h
  · cases h
  · split at h
    · cases h
    · rename_i hslash
      simpa [isAbs] using fun hsep => hslash (.inl (.inl hsep))

lemma up_notMem_of_safeName {name : Text} (h : isUnsafeName name = false) :
    Step.up ∉ steps name := by
  rw [up_mem_steps]
  unfold isUnsafeName at h
  split at h
  · cases h
  · split at h
    · cases h
    · split at h
      · cases h
      · simpa using h

/-- Where nothing below `destDir` is a link, a safe name leads to a place below it. -/
lemma resolve_safeName {dest : List Text} {name : Text} (hbox : NoLinksIn t destDir)
    (hdest : t.resolve destDir = some dest) (hname : isUnsafeName name = false) :
    t.resolve (join destDir name) = some (dest ++ downs (steps name)) := by
  rw [FileTree.resolve_join (isAbs_of_safeName hname), hdest, Option.bind_some]
  exact walk_plain (up_notMem_of_safeName hname) (hbox dest hdest)

/-! ### One entry -/

/-- Between two entries: where `destDir` leads a directory stands, so many entries were opened, and
the total is what was written. -/
structure Between (dest : List Text) (count total : ℕ) (w : World) : Prop where
  dest : w.tree.isDirAt dest = true
  opened : w.opened.length ≤ count
  total : w.bytesWritten = total

lemma Between.unmoved (dest : List Text) (count total : ℕ) :
    Unmoved (Between dest count total) := by
  intro w p _ hdir h
  exact ⟨FileTree.isDirAt_put Node.isPlain_dir hdir h.dest, h.opened, h.total⟩

lemma Safe.open {info : ZipInfo} {dest rest : List Text} {name : Text}
    (h : Safe limits t destDir w) (hdest : t.resolve destDir = some dest)
    (hregular : isLink info = false) (hlink : w.tree.links (dest ++ name :: rest) = none)
    (hdir : w.tree.isDirAt (dest ++ name :: rest) = false)
    (hfiles : w.opened.length < limits.maxFiles.toNat) :
    Safe limits t destDir (w.open info (dest ++ name :: rest)) where
  inside := by
    intro o ho
    rcases List.mem_append.mp ho with ho | ho
    · exact h.inside o ho
    · rw [List.mem_singleton.mp ho]
      exact ⟨dest, name, rest, hdest, rfl⟩
  regular := by
    intro o ho
    rcases List.mem_append.mp ho with ho | ho
    · exact h.regular o ho
    · rwa [List.mem_singleton.mp ho]
  writes := by
    intro write hwrite
    obtain ⟨o, ho, heq⟩ := h.writes write hwrite
    exact ⟨o, List.mem_append_left _ ho, heq⟩
  files := by
    have hlength : (w.open info (dest ++ name :: rest)).opened.length = w.opened.length + 1 := by
      simp [World.open]
    omega
  bytes := h.bytes
  links := (FileTree.links_put (Node.isPlain_file []) hlink).trans h.links
  tree := h.tree.trans (FileTree.extends_put (Node.isPlain_file []) hlink hdir)

/-- An entry is open: its path was opened and is no link and no directory. -/
structure Open (p : List Text) (w : World) : Prop where
  opened : ∃ o ∈ w.opened, o.2 = p
  link : w.tree.links p = none
  dir : w.tree.isDirAt p = false

variable {dest : List Text} {count total : ℕ}

lemma Between.open {info : ZipInfo} (h : Between dest count total w)
    (hdir : w.tree.isDirAt p = false) : Between dest (count + 1) total (w.open info p) where
  dest := FileTree.isDirAt_put (Node.isPlain_file []) hdir h.dest
  opened := by
    have hlength : (w.open info p).opened.length = w.opened.length + 1 := by simp [World.open]
    have := h.opened
    omega
  total := h.total

lemma Open.of_open {info : ZipInfo} (hlink : w.tree.links p = none)
    (hdir : w.tree.isDirAt p = false) : Open p (w.open info p) where
  opened := ⟨(info, p), by simp [World.open], rfl⟩
  link := by
    have hlinks : (w.open info p).tree.links = w.tree.links :=
      FileTree.links_put (Node.isPlain_file []) hlink
    rwa [hlinks]
  dir := FileTree.isDirAt_put_file hdir

lemma bytesWritten_write (chunk : Bytes) :
    (w.write p chunk).bytesWritten = w.bytesWritten + chunk.length := by
  simp [World.bytesWritten, World.write]

lemma Safe.write {chunk : Bytes} (h : Safe limits t destDir w) (hopen : Open p w)
    (hbytes : w.bytesWritten + chunk.length ≤ limits.maxTotalBytes.toNat) :
    Safe limits t destDir (w.write p chunk) where
  inside := h.inside
  regular := h.regular
  writes := by
    intro write hwrite
    rcases List.mem_append.mp hwrite with hwrite | hwrite
    · exact h.writes write hwrite
    · rw [List.mem_singleton.mp hwrite]
      exact hopen.opened
  files := h.files
  bytes := by rwa [bytesWritten_write]
  links := (FileTree.links_put (Node.isPlain_file _) hopen.link).trans h.links
  tree := h.tree.trans (FileTree.extends_put (Node.isPlain_file _) hopen.link hopen.dir)

lemma Between.write {chunk : Bytes} (h : Between dest count total w) (hopen : Open p w) :
    Between dest count (total + chunk.length) (w.write p chunk) where
  dest := FileTree.isDirAt_put (Node.isPlain_file _) hopen.dir h.dest
  opened := h.opened
  total := by rw [bytesWritten_write, h.total]

lemma Open.write {chunk : Bytes} (h : Open p w) : Open p (w.write p chunk) where
  opened := h.opened
  link := by
    have hlinks : (w.write p chunk).tree.links = w.tree.links :=
      FileTree.links_put (Node.isPlain_file _) h.link
    rw [hlinks]
    exact h.link
  dir := FileTree.isDirAt_put_file h.dir

lemma openEntry_spec {info : ZipInfo} {names : List Text} (hdest : t.resolve destDir = some dest)
    (hregular : isLink info = false) (hreal : Real t.links (dest ++ names))
    (hnames : ∀ name ∈ dest ++ names, IsName name) (hcount : count < limits.maxFiles.toNat) :
    Triple (Safe limits t destDir) (Between dest count total)
      (openEntry S info (render (dest ++ names)))
      fun p w => Between dest (count + 1) total w ∧ Open p w := by
  unfold openEntry
  cases info.openError with
  | some e => exact Triple.raise
  | none =>
    refine Triple.now_bind fun w hw hbetween => ?_
    cases htarget : w.tree.openTarget (render (dest ++ names)) with
    | none => exact Triple.raise
    | some p =>
      dsimp only
      cases S.openError w p with
      | some e => exact Triple.raise
      | none =>
        obtain ⟨hlink, hdir⟩ := FileTree.openTarget_spec htarget
        have hreal' : Real w.tree.links (dest ++ names) := by rwa [hw.links]
        obtain ⟨rfl, -⟩ := FileTree.openTarget_render hreal' hnames htarget
        obtain ⟨name, rest, rfl⟩ : ∃ name rest, names = name :: rest := by
          cases names with
          | nil =>
            rw [List.append_nil, hbetween.dest] at hdir
            cases hdir
          | cons name rest => exact ⟨name, rest, rfl⟩
        refine Triple.bind (Q := fun _ w => Between dest (count + 1) total w ∧
          Open (dest ++ name :: rest) w) (Triple.change ?_ ?_) fun _ => Triple.pure fun _ _ h => h
        · rintro _ hsafe rfl
          exact hsafe.open hdest hregular hlink hdir (by have := hbetween.opened; omega)
        · rintro _ _ rfl
          exact ⟨hbetween.open hdir, Open.of_open hlink hdir⟩

/-- What is written of a chunk, all of it or the part before the write raises, is within the limit. -/
lemma write_spec {chunk : Bytes} (hbytes : total + chunk.length ≤ limits.maxTotalBytes.toNat) :
    Triple (Safe limits t destDir) (fun w => Between dest count total w ∧ Open p w)
      (write S p chunk) fun _ w => Between dest count (total + chunk.length) w ∧ Open p w := by
  unfold ZipGuard.write
  refine Triple.now_bind fun w hw h => ?_
  obtain ⟨hbetween, hopen⟩ := h
  cases S.writeError w p chunk with
  | none =>
    refine Triple.change ?_ ?_
    · rintro _ hsafe rfl
      exact hsafe.write hopen (by rwa [hbetween.total])
    · rintro _ _ rfl
      exact ⟨hbetween.write hopen, hopen.write⟩
  | some refused =>
    refine Triple.bind (Q := fun _ _ => True) (Triple.change ?_ fun _ _ _ => trivial) fun _ =>
      Triple.raise
    rintro _ hsafe rfl
    refine hsafe.write hopen ?_
    have htaken : (chunk.take refused.1).length ≤ chunk.length := List.length_take_le' _ _
    rw [hbetween.total]
    omega

/-- The loop over the chunks of an entry; the induction is on the chunks that are still to come. -/
lemma copy_spec (info : ZipInfo) (chunks : List Bytes) (total : ℕ) :
    Triple (Safe limits t destDir) (fun w => Between dest count total w ∧ Open p w)
      (copy S limits info p chunks total) fun total' w => Between dest count total' w := by
  induction chunks generalizing total with
  | nil =>
    unfold copy
    cases info.readError with
    | some e => exact Triple.raise
    | none => exact Triple.pure fun _ _ h => h.1
  | cons chunk chunks ih =>
    unfold copy
    split
    · exact Triple.pure fun _ _ h => h.1
    · refine Triple.refuseIf_bind fun hbytes => ?_
      have hwithin : total + chunk.length ≤ limits.maxTotalBytes.toNat := by omega
      exact Triple.bind (write_spec hwithin) fun _ => ih (total + chunk.length)

/-- One turn of the loop over the entries. -/
lemma extractEntry_spec {destReal : Text} {info : ZipInfo} (hbox : NoLinksIn t destDir)
    (hdest : t.resolve destDir = some dest) (hcount : count < limits.maxFiles.toNat)
    (sofar : ℕ × List Text) :
    Triple (Safe limits t destDir) (Between dest count sofar.1)
      (extractEntry S limits destDir destReal sofar info)
      fun sofar' w => Between dest (count + 1) sofar'.1 w := by
  unfold extractEntry
  refine Triple.refuseIf_bind fun hregular => Triple.refuseIf_bind fun hsafe => ?_
  have hregular : isLink info = false := by simpa using hregular
  have hsafe : isUnsafeName info.filename.codes = false := by simpa using hsafe
  have hresolve := resolve_safeName hbox hdest hsafe
  refine Triple.bind (realpath_spec (join destDir info.filename.codes)) fun target => ?_
  refine Triple.assume fun htarget => ?_
  rw [htarget _ hresolve]
  refine Triple.refuseIf_bind fun _ => ?_
  split
  · exact Triple.pure fun _ _ h => ⟨h.dest, by have := h.opened; omega, h.total⟩
  · refine Triple.refuseIf_bind fun _ => Triple.refuseIf_bind fun _ => ?_
    refine Triple.bind ((makedirs_spec (Between.unmoved dest count sofar.1) _).post
      fun _ _ _ h => h.1) fun _ => ?_
    refine Triple.bind (openEntry_spec hdest hregular (FileTree.resolve_real hresolve)
      (FileTree.resolve_names hresolve) hcount) fun p => ?_
    exact Triple.bind (copy_spec info info.reads sofar.1) fun total => Triple.pure fun _ _ h => h

lemma safe_start : Safe limits t destDir ⟨t, [], []⟩ where
  inside := by simp
  regular := by simp
  writes := by simp
  files := Nat.zero_le _
  bytes := Nat.zero_le _
  links := rfl
  tree := FileTree.Extends.refl t

/-- The whole run; the loop hands on how many entries were opened and what the total is. -/
lemma safeExtract_spec (hbox : NoLinksIn t destDir) (archive : Except ZipError (List ZipInfo)) :
    Triple (Safe limits t destDir) (fun w => w.opened = [] ∧ w.bytesWritten = 0)
      (safeExtract S limits destDir archive) fun _ _ => True := by
  unfold safeExtract
  have hunmoved : Unmoved fun w => w.opened = [] ∧ w.bytesWritten = 0 := fun _ _ _ _ h => h
  refine Triple.bind (makedirs_spec hunmoved destDir) fun _ => ?_
  cases hdest : t.resolve destDir with
  | none => exact Triple.unreached (by simp)
  | some dest =>
    refine Triple.bind (chmod_spec destDir) fun _ => ?_
    refine Triple.bind (realpath_spec destDir) fun destReal => ?_
    cases archive with
    | error e =>
      exact Triple.bind (Q := fun _ _ => False) Triple.raise fun _ => Triple.unreached (by simp)
    | ok infos =>
      have hinfos : Triple (Safe limits t destDir)
          (fun w => w.opened = [] ∧ w.bytesWritten = 0 ∧ w.tree.isDirAt dest = true)
          (infolist (.ok infos)) fun is w => Between dest 0 0 w ∧ is = infos := by
        refine Triple.pure ?_
        rintro w _ ⟨hopened, hbytes, hdir⟩
        exact ⟨⟨hdir, by simp [hopened], hbytes⟩, rfl⟩
      refine Triple.bind (hinfos.pre fun w _ h => ⟨h.1.1.1, h.1.1.2, by simpa using h.1.2⟩)
        fun is => Triple.assume ?_
      rintro rfl
      refine Triple.refuseIf_bind fun hfiles => ?_
      have hloop := Triple.foldlM (I := Safe limits t destDir)
        (f := extractEntry S limits destDir destReal)
        (J := fun before sofar w => Between dest before.length sofar.1 w) [] is ?_ (0, [])
      · exact Triple.bind hloop fun _ => Triple.pure fun _ _ _ => trivial
      · intro before info rest sofar his
        rw [List.length_append]
        refine extractEntry_spec hbox hdest ?_ sofar
        have hlength := congrArg List.length his
        simp only [List.nil_append, List.length_append, List.length_cons] at hlength
        omega

end Steps

/-- **An archive stays in its box.**  Where nothing below `destDir` is a symbolic link, every state of
a run, however it ends, has opened for writing only what is strictly inside `destDir` and no symbolic
link, has opened and written no more than the limits allow, and has the links it began with. -/
theorem safeExtract_inBox (S : System) (limits : Limits) (destDir : Text)
    (archive : Except ZipError (List ZipInfo)) (t : FileTree UInt8) (hbox : NoLinksIn t destDir) :
    ∀ w ∈ (safeExtract S limits destDir archive).states ⟨t, [], []⟩, InBox limits t destDir w := by
  intro w hw
  exact (safeExtract_spec hbox archive).forall_states safe_start ⟨rfl, rfl⟩ w hw |>.toInBox

/-- `/d` is a directory, and nothing else is there. -/
def treeExample : FileTree UInt8 where
  node p := if p = [[100]] then some .dir else none
  depth := 0
  cwd := []
  cwd_real := real_nil
  cwd_names := by simp

/-- A system that refuses nothing. -/
def systemExample : System where
  realpathError _ _ := none
  unresolved _ _ := []
  mkdirError _ _ := none
  chmodError _ _ := none
  openError _ _ := none
  writeError _ _ _ := none

/-- An entry `a/t` of two reads, and one that is to land outside. -/
def archiveExample : List ZipInfo :=
  [⟨.text "a/t", 0, 3, 0, none, [[1, 2], [3]], none⟩, ⟨.text "../x", 0, 0, 0, none, [], none⟩]

theorem safeExtract_inBox_example :
    (∀ w ∈ (safeExtract systemExample ⟨2, 3, 10, 3⟩ [47, 100] (.ok archiveExample)).states
      ⟨treeExample, [], []⟩, InBox ⟨2, 3, 10, 3⟩ treeExample [47, 100] w) ∧
      (safeExtract systemExample ⟨2, 3, 10, 3⟩ [47, 100] (.ok archiveExample)
        ⟨treeExample, [], []⟩).1 = .error (.hostile "TRAVERSAL" (.text "../x")) := by
  have hbox : NoLinksIn treeExample [47, 100] := by
    intro dest _ names _
    have hnode : ∀ p text, treeExample.node p ≠ some (.link text) := by
      intro p text h
      unfold treeExample at h
      dsimp only at h
      split at h
      · cases h
      · cases h
    unfold FileTree.links linksOf
    split
    · rename_i text h
      exact absurd h (hnode _ text)
    · rfl
  exact ⟨safeExtract_inBox systemExample ⟨2, 3, 10, 3⟩ [47, 100] (.ok archiveExample) treeExample hbox,
    by decide +kernel⟩

end WhatsVault.Importers.ZipGuard
