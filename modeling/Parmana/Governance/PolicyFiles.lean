import Parmana.Collections.Paths
import Parmana.Governance.PolicyApprovals
import Parmana.Js.Pieces
import Parmana.Js.Sameness
import Parmana.Js.WellFormed

/-! # Where policies are kept

`FilePolicyRepository` keeps the policy of a name and a version in
`basePath/name/version/policy.json`; `SupabasePolicyRepository` keeps it in the row of the
two.  Both take only names and versions of letters, digits, dots, underscores and hyphens,
so that no name can walk out of the directory.

A dot is one of these, and so are two: the name `..` leads out of the directory, and the
name `.` with the version `x` has the file of the name `x` with the version `.`.  **A name
and a version have a file of their own, two directories down, exactly when neither is `.`
or `..`** (`ownFile_iff`), and while only such are used, the two repositories answer alike
(`repositories_agree`).
-/
namespace Parmana.Governance
open Js Json Paths

/-! ## Paths as texts -/

/-- What a segment of a path means. -/
def pathStep (segment : List UInt16) : Step JsString :=
  if segment = [] ∨ segment = [0x2E] then .stay
  else if segment = [0x2E, 0x2E] then .up
  else .down ⟨segment⟩

/-- The steps of a path. -/
def pathSteps (path : JsString) : List (Step JsString) :=
  (JsString.splitUnits 0x2F path.units).map pathStep

/-- Whether a path begins at the root. -/
def isAbsolute (path : JsString) : Bool := path.units.head? = some 0x2F

/-- A path without segments that lead nowhere. -/
structure NormalPath where
  absolute : Bool
  steps : List (Step JsString)
  deriving DecidableEq

/-- `path.join(...parts)`. -/
def pathJoin (parts : List JsString) : NormalPath :=
  let joined := JsString.join "/" (parts.filter fun part => !part.isEmpty)
  ⟨isAbsolute joined, normalize (!isAbsolute joined) (pathSteps joined)⟩

/-- The file that the operating system finds under a path, for a process in a directory. -/
def NormalPath.resolve (cwd : List JsString) (path : NormalPath) : List JsString :=
  walk (if path.absolute then [] else cwd) path.steps

/-! ## The repositories -/

/-- `path.join(this.basePath, name, version, "policy.json")`. -/
def policyFile (basePath name version : JsString) : NormalPath :=
  pathJoin [basePath, name, version, "policy.json"]

/-- `path.join(this.basePath, name, version)`. -/
def policyDirectory (basePath name version : JsString) : NormalPath :=
  pathJoin [basePath, name, version]

/-- A file and the document in it. -/
structure StoredFile where
  path : List JsString
  content : Json

/-- The files there are. -/
abbrev Files := Table StoredFile.path

/-- What `JSON.parse` gives back of the text that `JSON.stringify` makes of a document.
The white space that it may put between the members is not read. -/
def reparsed (content : Json) : Json := content.ordered.settle

/-- `PolicyNotFoundError`. -/
def policyNotFound (name version : JsString) : Failure :=
  .policyError (("Policy '" : JsString) ++ name ++ ("' version '" : JsString) ++ version ++
    ("' was not found." : JsString))

/-- `PolicyWriteRejectedError`. -/
def policyWriteRejected (name version : JsString) : Failure :=
  .policyError (("Refusing to write policy '" : JsString) ++ name ++
    ("' version '" : JsString) ++ version ++
    ("': name and version must match ^[A-Za-z0-9._-]+$." : JsString))

/-- A call of a policy repository. -/
inductive PolicyCall where
  | load (name version : JsString)
  | save (name version : JsString) (content : Json)
  deriving DecidableEq

/-- Whether a repository takes a name and a version. -/
def accepts (name version : JsString) : Bool :=
  validNameOrVersion name && validNameOrVersion version

/-- What a repository answers: what was loaded, or nothing where something was saved. -/
abbrev PolicyAnswer := Except Failure (Option Json)

/-- `FilePolicyRepository`, in a process in a directory: `mkdir` fails where a file is in
its way, and `rename` where a directory is. -/
def FilePolicyRepository.call (cwd : List JsString) (basePath : JsString) (files : Files) :
    PolicyCall → PolicyAnswer × Files
  | .load name version =>
    if accepts name version then
      match files.get ((policyFile basePath name version).resolve cwd) with
      | some file => (.ok (some file.content), files)
      | none => (.error (policyNotFound name version), files)
    else (.error (policyNotFound name version), files)
  | .save name version content =>
    if accepts name version then
      let directory := (policyDirectory basePath name version).resolve cwd
      let path := (policyFile basePath name version).resolve cwd
      if files.values.any fun file => file.path.isPrefixOf directory then
        (.error (.error "EEXIST"), files)
      else if files.values.any fun file => path.isPrefixOf file.path && path ≠ file.path then
        (.error (.error "EISDIR"), files)
      else (.ok none, files.set ⟨path, reparsed content⟩)
    else (.error (policyWriteRejected name version), files)

/-- `SupabasePolicyRepository`, over a database that reads a document as `jsonb`. -/
def SupabasePolicyRepository.call (jsonb : Json → Except Failure Json) (policies : LivePolicies) :
    PolicyCall → PolicyAnswer × LivePolicies
  | .load name version =>
    if accepts name version then
      match policies.get (name, version) with
      | some row => (.ok (some row.content), policies)
      | none => (.error (policyNotFound name version), policies)
    else (.error (policyNotFound name version), policies)
  | .save name version content =>
    if accepts name version then
      match jsonb (reparsed content) with
      | .ok stored => (.ok none, policies.set ⟨name, version, stored⟩)
      | .error failure => (.error failure, policies)
    else (.error (policyWriteRejected name version), policies)

/-- The answers to calls, one after the other. -/
def answers {σ : Type} (call : σ → PolicyCall → PolicyAnswer × σ) : σ → List PolicyCall →
    List PolicyAnswer
  | _, [] => []
  | s, c :: calls => (call s c).1 :: answers call (call s c).2 calls

/-! ## Names that are directories -/

/-- A name that is not `.` or `..`. -/
def Proper (name : JsString) : Prop := name ≠ "." ∧ name ≠ ".."

instance (name : JsString) : Decidable (Proper name) := by
  unfold Proper
  infer_instance

section Segments
variable {name version : JsString}

theorem valid_units (h : validNameOrVersion name = true) :
    name.units ≠ [] ∧ (0x2F : UInt16) ∉ name.units := by
  unfold validNameOrVersion JsString.isEmpty at h
  rw [Bool.and_eq_true, Bool.not_eq_true', List.all_eq_true] at h
  refine ⟨fun hnil => by rw [hnil] at h; exact absurd h.1 (by decide), fun hmem => ?_⟩
  exact absurd (h.2 _ hmem) (by decide)

/-- A name is one step, down to itself where it is proper. -/
theorem steps_of_valid (h : validNameOrVersion name = true) :
    pathSteps name = [pathStep name.units] := by
  unfold pathSteps
  rw [JsString.splitUnits_of_not_mem (valid_units h).2]
  rfl

theorem step_of_proper (h : validNameOrVersion name = true) (hproper : Proper name) :
    pathStep name.units = .down name := by
  have hdot : name.units ≠ [0x2E] := fun hunits => hproper.1 (congrArg JsString.mk hunits)
  have hdots : name.units ≠ [0x2E, 0x2E] := fun hunits => hproper.2 (congrArg JsString.mk hunits)
  unfold pathStep
  rw [if_neg (not_or.mpr ⟨(valid_units h).1, hdot⟩), if_neg hdots]

theorem step_of_improper (h : ¬ Proper name) : (pathStep name.units).isDown = false := by
  unfold Proper at h
  rw [not_and_or, not_not, not_not] at h
  rcases h with rfl | rfl
  · decide
  · decide

theorem resolve_pathJoin_eq {cwd parts : List JsString} {joined : JsString}
    (h : JsString.join "/" (parts.filter fun part => !part.isEmpty) = joined) :
    (pathJoin parts).resolve cwd =
      walk (if isAbsolute joined then [] else cwd) (pathSteps joined) := by
  have hpath : pathJoin parts =
      ⟨isAbsolute joined, normalize (!isAbsolute joined) (pathSteps joined)⟩ := by
    unfold pathJoin
    rw [h]
  rw [hpath]
  generalize isAbsolute joined = absolute
  cases absolute with
  | true => exact walk_normalize_root _
  | false => exact walk_normalize _ _

theorem pathSteps_join {parts : List JsString} (h : parts ≠ []) :
    pathSteps (JsString.join "/" parts) = parts.flatMap pathSteps := by
  have hpieces : JsString.splitUnits 0x2F (JsString.join ⟨[0x2F]⟩ parts).units =
      parts.flatMap fun part => JsString.splitUnits 0x2F part.units :=
    JsString.splitUnits_join h
  unfold pathSteps
  rw [show (JsString.join "/" parts) = JsString.join ⟨[0x2F]⟩ parts from rfl, hpieces,
    List.map_flatMap]

theorem head_join {part : JsString} {parts : List JsString} (h : part.units ≠ []) :
    (JsString.join "/" (part :: parts)).units.head? = part.units.head? := by
  cases parts with
  | nil => rfl
  | cons next rest =>
    show (part.units ++ _ ++ _).head? = _
    rw [List.append_assoc, List.head?_append_of_ne_nil _ h]

/-- **Where a joined path leads is where its parts lead, one after the other.** -/
theorem resolve_pathJoin {cwd : List JsString} {basePath : JsString} {parts : List JsString}
    (hparts : ∀ part ∈ parts, part.units ≠ [] ∧ (0x2F : UInt16) ∉ part.units) :
    (pathJoin (basePath :: parts)).resolve cwd =
      walk ((pathJoin [basePath]).resolve cwd) (parts.flatMap pathSteps) := by
  have hkept : parts.filter (fun part => !part.isEmpty) = parts := by
    refine List.filter_eq_self.mpr fun part hpart => ?_
    unfold JsString.isEmpty
    simp [(hparts part hpart).1]
  rw [resolve_pathJoin_eq rfl, resolve_pathJoin_eq rfl]
  by_cases hbase : basePath.units = []
  · -- an empty base path is left out
    have hempty : ([basePath] : List JsString).filter (fun part => !part.isEmpty) = [] := by
      simp [JsString.isEmpty, hbase]
    rw [List.filter_cons_of_neg (by simp [JsString.isEmpty, hbase]), hkept, hempty]
    cases parts with
    | nil => rfl
    | cons part rest =>
      obtain ⟨hne, hslash⟩ := hparts part List.mem_cons_self
      have hrelative : isAbsolute (JsString.join "/" (part :: rest)) = false := by
        unfold isAbsolute
        rw [head_join hne, decide_eq_false_iff_not]
        intro hhead
        exact hslash (List.mem_of_head? hhead)
      rw [hrelative, pathSteps_join (List.cons_ne_nil _ _)]
      rfl
  · have hnonempty : (!basePath.isEmpty) = true := by simp [JsString.isEmpty, hbase]
    have hwhole : (basePath :: parts).filter (fun part => !part.isEmpty) = basePath :: parts := by
      rw [List.filter_cons_of_pos (by exact hnonempty), hkept]
    have honly : [basePath].filter (fun part => !part.isEmpty) = [basePath] :=
      List.filter_cons_of_pos (by exact hnonempty)
    rw [hwhole, honly, pathSteps_join (List.cons_ne_nil _ _), pathSteps_join (List.cons_ne_nil _ _),
      List.flatMap_cons, List.flatMap_singleton, walk_append]
    unfold isAbsolute
    rw [head_join hbase, head_join hbase]

end Segments

/-! ## Files of one's own -/

/-- The directory that policies are kept below. -/
def baseDirectory (cwd : List JsString) (basePath : JsString) : List JsString :=
  (pathJoin [basePath]).resolve cwd

/-- `name/version/policy.json` below a directory. -/
def policyPath (directory : List JsString) (name version : JsString) : List JsString :=
  directory ++ [name, version, "policy.json"]

theorem policyPath_injective {directory : List JsString} {name version name' version' : JsString}
    (h : policyPath directory name' version' = policyPath directory name version) :
    name' = name ∧ version' = version := by
  have hnames := List.append_cancel_left h
  simp only [List.cons.injEq] at hnames
  exact ⟨hnames.1, hnames.2.1⟩

section OwnFile
variable {cwd : List JsString} {basePath name version name' version' : JsString}

theorem accepts_iff : accepts name version = true ↔
    validNameOrVersion name = true ∧ validNameOrVersion version = true :=
  Bool.and_eq_true_iff

theorem resolve_policyDirectory (h : accepts name version = true) :
    (policyDirectory basePath name version).resolve cwd =
      walk (baseDirectory cwd basePath) [pathStep name.units, pathStep version.units] := by
  obtain ⟨hname, hversion⟩ := accepts_iff.mp h
  unfold policyDirectory
  rw [resolve_pathJoin (by simp [valid_units hname, valid_units hversion])]
  simp [steps_of_valid hname, steps_of_valid hversion, baseDirectory]

theorem resolve_policyFile (h : accepts name version = true) :
    (policyFile basePath name version).resolve cwd =
      walk (baseDirectory cwd basePath)
        [pathStep name.units, pathStep version.units, .down "policy.json"] := by
  obtain ⟨hname, hversion⟩ := accepts_iff.mp h
  have hlast : pathSteps "policy.json" = [.down "policy.json"] := by decide
  have hunits : ("policy.json" : JsString).units ≠ [] ∧
      (0x2F : UInt16) ∉ ("policy.json" : JsString).units := by decide
  unfold policyFile
  rw [resolve_pathJoin (by simp [valid_units hname, valid_units hversion, hunits])]
  simp [steps_of_valid hname, steps_of_valid hversion, hlast, baseDirectory]

/-- A proper name and a proper version lead two directories down. -/
theorem resolve_proper (h : accepts name version = true) (hname : Proper name)
    (hversion : Proper version) :
    (policyFile basePath name version).resolve cwd =
        policyPath (baseDirectory cwd basePath) name version ∧
      (policyDirectory basePath name version).resolve cwd =
        baseDirectory cwd basePath ++ [name, version] := by
  obtain ⟨hvalidName, hvalidVersion⟩ := accepts_iff.mp h
  rw [resolve_policyFile h, resolve_policyDirectory h, step_of_proper hvalidName hname,
    step_of_proper hvalidVersion hversion]
  simp [Step.from, policyPath]

/-- Any other name or version leads less deep. -/
theorem length_improper (h : accepts name version = true)
    (himproper : ¬ (Proper name ∧ Proper version)) :
    ((policyFile basePath name version).resolve cwd).length ≤
      (baseDirectory cwd basePath).length + 2 := by
  rw [resolve_policyFile h]
  refine (length_walk_le _ _).trans (Nat.add_le_add_left ?_ _)
  rcases not_and_or.mp himproper with hname | hversion
  · rw [List.filter_cons_of_neg (by rw [step_of_improper hname]; exact Bool.false_ne_true)]
    exact List.length_filter_le _ _
  · rw [List.filter_cons, List.filter_cons_of_neg
      (by rw [step_of_improper hversion]; exact Bool.false_ne_true)]
    split
    · exact Nat.le_refl _
    · exact Nat.le_succ _

/-- **A name and a version have a file of their own, two directories below the base path,
exactly when both are proper.** -/
theorem ownFile_iff (h : accepts name version = true) :
    ((policyFile basePath name version).resolve cwd =
        policyPath (baseDirectory cwd basePath) name version ∧
      ∀ name' version', accepts name' version' = true →
        (policyFile basePath name' version').resolve cwd =
          (policyFile basePath name version).resolve cwd →
        name' = name ∧ version' = version) ↔ Proper name ∧ Proper version := by
  constructor
  · rintro ⟨hfile, -⟩
    by_contra himproper
    have hlength : ((policyFile basePath name version).resolve cwd).length ≤
        (baseDirectory cwd basePath).length + 2 := length_improper h himproper
    rw [hfile, policyPath, List.length_append] at hlength
    simp at hlength
  · rintro ⟨hname, hversion⟩
    have hfile : (policyFile basePath name version).resolve cwd =
        policyPath (baseDirectory cwd basePath) name version :=
      (resolve_proper h hname hversion).1
    refine ⟨hfile, fun name' version' h' hsame => ?_⟩
    rw [hfile] at hsame
    by_cases hproper : Proper name' ∧ Proper version'
    · rw [(resolve_proper h' hproper.1 hproper.2).1] at hsame
      exact policyPath_injective hsame
    · have hlength : ((policyFile basePath name' version').resolve cwd).length ≤
          (baseDirectory cwd basePath).length + 2 := length_improper h' hproper
      rw [hsame, policyPath, List.length_append] at hlength
      simp at hlength

end OwnFile

/-! ## The repositories answer alike -/

/-- The database gives back what it can hold, the members in any order. -/
def KeepsContents (jsonb : Json → Except Failure Json) : Prop :=
  ∀ content, content.distinct = true → content.finite = true → Storable content →
    ∃ stored, jsonb content = .ok stored ∧ stored.same content = true

mutual

/-- What is read back has only finite numbers. -/
theorem settle_finite : ∀ content : Json, content.settle.finite = true
  | .null => rfl
  | .bool _ => rfl
  | .str _ => rfl
  | .num n => by
    rw [settle]
    by_cases hfinite : n.isFinite = true
    · rw [if_pos hfinite]
      cases n with
      | negZero => rfl
      | _ => exact hfinite
    · rw [if_neg hfinite]
      rfl
  | .arr xs => settleEach_finite xs
  | .obj fs => settleMembers_finite fs

theorem settleEach_finite : ∀ xs : List Json, finiteEach (settleEach xs) = true
  | [] => rfl
  | x :: xs => Bool.and_eq_true_iff.mpr ⟨settle_finite x, settleEach_finite xs⟩

theorem settleMembers_finite : ∀ fs : Fields, finiteMembers (settleMembers fs) = true
  | [] => rfl
  | (_, v) :: fs => Bool.and_eq_true_iff.mpr ⟨settle_finite v, settleMembers_finite fs⟩

end

/-- A call that both repositories can serve: with proper names, and a content that the
database can hold. -/
def PolicyCall.Plain : PolicyCall → Prop
  | .load name version => Proper name ∧ Proper version
  | .save name version content => Proper name ∧ Proper version ∧ content.distinct = true ∧
      Storable (reparsed content)

/-- Answers that are alike: the same error, or the same content up to the order of members. -/
def Alike (file row : PolicyAnswer) : Prop :=
  match file, row with
  | .ok (some a), .ok (some b) => b.same a = true
  | .ok none, .ok none => True
  | .error e, .error e' => e = e'
  | _, _ => False

/-- No file is in the way of the base path, and none is below it. -/
def Clear (directory : List JsString) (files : Files) : Prop :=
  ∀ file ∈ files.values, ¬ file.path <+: directory ∧ ¬ directory <+: file.path

section Agree
variable {cwd : List JsString} {basePath : JsString} {jsonb : Json → Except Failure Json}
  {files : Files} {policies : LivePolicies}

/-- The files below the base path are those of the rows. -/
structure Mirrors (directory : List JsString) (files : Files) (policies : LivePolicies) : Prop where
  found : ∀ name version, Proper name → Proper version →
    match files.get (policyPath directory name version), policies.get (name, version) with
    | some file, some row => row.content.same file.content = true
    | none, none => True
    | _, _ => False
  placed : ∀ file ∈ files.values,
    (¬ file.path <+: directory ∧ ¬ directory <+: file.path) ∨
      ∃ name version, file.path = policyPath directory name version

variable {directory : List JsString}

theorem mirrors_clear (h : Clear directory files) : Mirrors directory files .empty := by
  refine ⟨fun name version _ _ => ?_, fun file hfile => .inl (h file hfile)⟩
  cases hget : files.get (policyPath directory name version) with
  | none => trivial
  | some file =>
    have hpath := Table.key_of_get hget
    exact absurd (hpath ▸ List.prefix_append _ _) (h file (Table.mem_of_get hget)).2

/-- Nothing is in the way of a policy's directory or of its file. -/
theorem Mirrors.free (h : Mirrors directory files policies) {file : StoredFile}
    (hfile : file ∈ files.values) (name version : JsString) :
    ¬ file.path <+: directory ++ [name, version] ∧
      (policyPath directory name version <+: file.path →
        policyPath directory name version = file.path) := by
  rcases h.placed file hfile with ⟨hbefore, hbelow⟩ | ⟨name', version', hpath⟩
  · refine ⟨fun hprefix => ?_, fun hprefix => ?_⟩
    · rcases List.prefix_or_prefix_of_prefix hprefix (List.prefix_append directory _) with h | h
      · exact hbefore h
      · exact hbelow h
    · exact absurd ((List.prefix_append directory _).trans hprefix) hbelow
  · rw [hpath]
    refine ⟨fun hprefix => ?_, fun hprefix => ?_⟩
    · have hlength := hprefix.length_le
      unfold policyPath at hlength
      simp at hlength
    · refine hprefix.eq_of_length ?_
      unfold policyPath
      simp

/-- A policy that is written in both is in both. -/
theorem Mirrors.write (h : Mirrors directory files policies) {name version : JsString}
    {content stored : Json} (hsame : stored.same content = true) :
    Mirrors directory (files.set ⟨policyPath directory name version, content⟩)
      (policies.set ⟨name, version, stored⟩) where
  found name' version' hname' hversion' := by
    rw [Table.get_set, Table.get_set]
    by_cases hpair : (name', version') = (name, version)
    · obtain ⟨rfl, rfl⟩ := Prod.mk.inj hpair
      rw [if_pos rfl, if_pos rfl]
      exact hsame
    · have hpath : ¬ policyPath directory name' version' = policyPath directory name version := by
        intro hpath
        obtain ⟨hname, hversion⟩ := policyPath_injective hpath
        exact hpair (by rw [hname, hversion])
      rw [if_neg hpath, if_neg hpair]
      exact h.found name' version' hname' hversion'
  placed file hfile := by
    rcases Table.mem_set.mp hfile with rfl | ⟨hold, -⟩
    · exact .inr ⟨name, version, rfl⟩
    · exact h.placed file hold

/-- **One call**: the answers are alike, and the files stay those of the rows. -/
theorem Mirrors.call (hjsonb : KeepsContents jsonb)
    (h : Mirrors (baseDirectory cwd basePath) files policies) {c : PolicyCall} (hc : c.Plain) :
    Alike (FilePolicyRepository.call cwd basePath files c).1
        (SupabasePolicyRepository.call jsonb policies c).1 ∧
      Mirrors (baseDirectory cwd basePath) (FilePolicyRepository.call cwd basePath files c).2
        (SupabasePolicyRepository.call jsonb policies c).2 := by
  cases c with
  | load name version =>
    obtain ⟨hname, hversion⟩ := hc
    unfold FilePolicyRepository.call SupabasePolicyRepository.call
    dsimp only
    by_cases haccepts : accepts name version = true
    · have hfound := h.found name version hname hversion
      rw [if_pos haccepts, if_pos haccepts, (resolve_proper haccepts hname hversion).1]
      cases hfile : files.get (policyPath (baseDirectory cwd basePath) name version) with
      | none =>
        cases hrow : policies.get (name, version) with
        | none => exact ⟨rfl, h⟩
        | some row =>
          rw [hfile, hrow] at hfound
          exact hfound.elim
      | some file =>
        cases hrow : policies.get (name, version) with
        | none =>
          rw [hfile, hrow] at hfound
          exact hfound.elim
        | some row =>
          rw [hfile, hrow] at hfound
          exact ⟨hfound, h⟩
    · rw [if_neg haccepts, if_neg haccepts]
      exact ⟨rfl, h⟩
  | save name version content =>
    obtain ⟨hname, hversion, hdistinct, hstorable⟩ := hc
    unfold FilePolicyRepository.call SupabasePolicyRepository.call
    dsimp only
    by_cases haccepts : accepts name version = true
    · obtain ⟨hpath, hdirectory⟩ :
          (policyFile basePath name version).resolve cwd =
              policyPath (baseDirectory cwd basePath) name version ∧
            (policyDirectory basePath name version).resolve cwd =
              baseDirectory cwd basePath ++ [name, version] :=
        resolve_proper haccepts hname hversion
      obtain ⟨stored, hstored, hsame⟩ :=
        hjsonb (reparsed content) (settle_distinct (ordered_distinct hdistinct)) (settle_finite _)
          hstorable
      have hmkdir : (files.values.any fun file =>
          file.path.isPrefixOf (baseDirectory cwd basePath ++ [name, version])) = false := by
        rw [List.any_eq_false]
        intro file hfile hprefix
        exact (h.free hfile name version).1 (List.isPrefixOf_iff_prefix.mp hprefix)
      have hrename : (files.values.any fun file =>
          (policyPath (baseDirectory cwd basePath) name version).isPrefixOf file.path &&
            policyPath (baseDirectory cwd basePath) name version ≠ file.path) = false := by
        rw [List.any_eq_false]
        intro file hfile hprefix
        rw [Bool.and_eq_true, decide_eq_true_eq] at hprefix
        exact hprefix.2 ((h.free hfile name version).2 (List.isPrefixOf_iff_prefix.mp hprefix.1))
      rw [if_pos haccepts, if_pos haccepts, hpath, hdirectory, hmkdir, hrename, hstored]
      exact ⟨trivial, h.write hsame⟩
    · rw [if_neg haccepts, if_neg haccepts]
      exact ⟨rfl, h⟩

/-- **The repositories answer alike**, call by call, while names are proper and the database
can hold what is saved. -/
theorem Mirrors.answers (hjsonb : KeepsContents jsonb)
    (h : Mirrors (baseDirectory cwd basePath) files policies) {calls : List PolicyCall}
    (hcalls : ∀ c ∈ calls, c.Plain) :
    List.Forall₂ Alike (answers (FilePolicyRepository.call cwd basePath) files calls)
      (answers (SupabasePolicyRepository.call jsonb) policies calls) := by
  induction calls generalizing files policies with
  | nil => exact .nil
  | cons c calls ih =>
    obtain ⟨halike, hnext⟩ := h.call hjsonb (hcalls c List.mem_cons_self)
    exact .cons halike (ih hnext fun c hc => hcalls c (List.mem_cons_of_mem _ hc))

end Agree

/-- **Which names and versions are safe.**  A name and a version that are accepted have a
file of their own, two directories below the base path, exactly when neither is `.` or
`..`; and while no other name is used, and the database can hold what is saved, the two
repositories answer alike. -/
theorem policy_files_iff {cwd : List JsString} {basePath : JsString} :
    (∀ name version, accepts name version = true →
      (((policyFile basePath name version).resolve cwd =
          policyPath (baseDirectory cwd basePath) name version ∧
        ∀ name' version', accepts name' version' = true →
          (policyFile basePath name' version').resolve cwd =
            (policyFile basePath name version).resolve cwd →
          name' = name ∧ version' = version) ↔ Proper name ∧ Proper version)) ∧
    ∀ jsonb, KeepsContents jsonb → ∀ files, Clear (baseDirectory cwd basePath) files →
      ∀ calls, (∀ c ∈ calls, PolicyCall.Plain c) →
        List.Forall₂ Alike (answers (FilePolicyRepository.call cwd basePath) files calls)
          (answers (SupabasePolicyRepository.call jsonb) .empty calls) :=
  ⟨fun _ _ haccepts => ownFile_iff haccepts,
    fun _ hjsonb _ hclear _ hcalls => (mirrors_clear hclear).answers hjsonb hcalls⟩

/-! ### A directory on a server -/

/-- A database that holds what it can as it is. -/
def plainJsonb (content : Json) : Except Failure Json :=
  if Storable content then .ok content
  else .error (.error "unsupported Unicode escape sequence")

theorem plainJsonb_keeps : KeepsContents plainJsonb := by
  intro content hdistinct hfinite hstorable
  exact ⟨content, if_pos hstorable, (same_iff hdistinct hdistinct hfinite hfinite).mpr rfl⟩

/-- A policy is saved and loaded. -/
def saveAndLoad : List PolicyCall :=
  [.save "refunds" "1" (Refunds.policy "review"), .load "refunds" "1"]

theorem policy_files_refunds :
    (policyFile "/srv/policies" "refunds" "1").resolve [] =
        policyPath (baseDirectory [] "/srv/policies") "refunds" "1" ∧
      List.Forall₂ Alike (answers (FilePolicyRepository.call [] "/srv/policies") .empty saveAndLoad)
        (answers (SupabasePolicyRepository.call plainJsonb) .empty saveAndLoad) := by
  obtain ⟨hfile, halike⟩ := @policy_files_iff [] "/srv/policies"
  refine ⟨((hfile "refunds" "1" (by decide)).mpr (by decide)).1,
    halike plainJsonb plainJsonb_keeps .empty (fun file hmem => absurd hmem List.not_mem_nil)
      saveAndLoad fun c hc => ?_⟩
  simp only [saveAndLoad, List.mem_cons, List.not_mem_nil, or_false] at hc
  rcases hc with rfl | rfl
  · exact ⟨by decide, by decide, by decide, by decide⟩
  · exact ⟨by decide, by decide⟩

/-- **Names that walk**: the name `..` leads out of the base directory, and one policy is
loaded under the name of another. -/
theorem names_walk :
    accepts ".." "x" = true ∧
      (policyFile "/srv/policies" ".." "x").resolve [] = ["srv", "x", "policy.json"] ∧
      ¬ baseDirectory [] "/srv/policies" <+: (policyFile "/srv/policies" ".." "x").resolve [] ∧
      answers (FilePolicyRepository.call [] "/srv/policies") .empty
          [.save "." "x" (.str "content"), .load "x" "."] =
        [.ok none, .ok (some (.str "content"))] ∧
      answers (SupabasePolicyRepository.call plainJsonb) .empty
          [.save "." "x" (.str "content"), .load "x" "."] =
        [.ok none, .error (policyNotFound "x" ".")] := by
  refine ⟨by decide, by decide, by decide, by decide, by decide⟩

end Parmana.Governance
