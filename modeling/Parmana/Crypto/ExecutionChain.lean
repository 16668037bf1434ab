import Parmana.Collections.HashChain
import Parmana.Crypto.RecordVerification

/-! # The chain of executions

The executions of a transaction are chained: each is hashed together with the hash of
the one before it, and the hash is signed.  A row keeps the hash it names, its own
hash and the signature.

Whoever can write the rows but has no key can change anything in them, these fields
included.  The verifier checks the rows that have both a hash and a signature, and
skips the others; but a row without a signature still lends its hash to the next one.
**So an accepted list is genuine exactly when the rows that carry a hash and no
signature are** (`genuine_iff`), and every list the signer wrote is accepted
(`accepts_untouched`).
-/
namespace Parmana.Crypto
open Js

/-! ## Rows -/

/-- An `Execution` as it is stored: its content, and its chain fields. -/
structure ChainedExecution where
  execution : Entity
  previousChainHash : Option JsString
  chainHash : Option JsString
  chainSignature : Option Signature

/-- The chain entry of a row, with the hash it names. -/
def ChainedExecution.entry (row : ChainedExecution) : Data :=
  canonicalChainEntry row.execution.data row.previousChainHash

/-- `ExecutionChainFields`. -/
structure ExecutionChainFields where
  previousChainHash : Option JsString
  chainHash : JsString
  chainSignature : Signature

/-- `ChainVerificationResult`. -/
structure ChainVerificationResult where
  valid : Bool
  brokenAt : Option Data
  reason : Option JsString

/-- `DEFAULT_KEY_ID`. -/
def DEFAULT_KEY_ID : JsString := "default"

/-- `ExecutionChainCrypto`, with the digest, the provider and the signer it has. -/
structure ExecutionChainCrypto (Key : Type) where
  sha256 : List UInt8 → JsString
  signature : SignatureProvider Key
  sign : JsString → List UInt8 → Except JsString (List Char)
  getPublicKey : JsString → Except JsString (KeyObject Key)

namespace ExecutionChainCrypto
variable {Key : Type} (self : ExecutionChainCrypto Key)

/-- `chain`. -/
def chain (execution : Entity) (previousChainHash : Option JsString) :
    Except JsString ExecutionChainFields := do
  let entry := canonicalChainEntry execution.data previousChainHash
  let chainHash ← TrustRecordHasher.hash self.sha256 entry
  let bytes ← serialize entry
  let value ← self.sign DEFAULT_KEY_ID bytes
  return ⟨previousChainHash, chainHash, ⟨self.signature.algorithm, DEFAULT_KEY_ID, value⟩⟩

/-- `verifyEntry`. -/
def verifyEntry (row : ChainedExecution) : Except JsString Bool :=
  match row.chainHash, row.chainSignature with
  | some chainHash, some chainSignature => do
    let expectedHash ← TrustRecordHasher.hash self.sha256 row.entry
    if expectedHash ≠ chainHash then
      return false
    let publicKey ← self.getPublicKey chainSignature.keyId
    SignatureVerifier.verify self.signature row.entry chainSignature.value publicKey
  | _, _ => return false

/-- `brokenAt` an execution. -/
def broken (row : ChainedExecution) (reason : JsString) : ChainVerificationResult :=
  ⟨false, some (row.execution.data.get "executionId"), some reason⟩

/-- One round of the loop: what it returns, or nothing to go on. -/
def verifyRow (previous : Option ChainedExecution) (row : ChainedExecution) :
    Except JsString (Option ChainVerificationResult) :=
  if row.chainHash.isSome && row.chainSignature.isSome then do
    let entryValid ← self.verifyEntry row
    let expectedPrevious := previous.bind ChainedExecution.chainHash
    if !entryValid then
      return some (broken row "chainHash or chainSignature does not match recomputed content.")
    else if row.previousChainHash ≠ expectedPrevious then
      return some
        (broken row "previousChainHash does not reference the prior execution's chainHash.")
    else return none
  else return none

/-- The loop of `verifyChain`. -/
def verifyFrom : Option ChainedExecution → List ChainedExecution →
    Except JsString ChainVerificationResult
  | _, [] => .ok ⟨true, none, none⟩
  | previous, row :: rows => do
    match ← self.verifyRow previous row with
    | some result => return result
    | none => verifyFrom (some row) rows

/-- `verifyChain`. -/
def verifyChain (executions : List ChainedExecution) : Except JsString ChainVerificationResult :=
  self.verifyFrom none executions

/-- The rows are found valid. -/
def Accepts (executions : List ChainedExecution) : Prop :=
  ∃ result, self.verifyChain executions = .ok result ∧ result.valid = true

end ExecutionChainCrypto

/-! ## What is accepted -/

namespace ExecutionChainCrypto
variable {Key : Type} {self : ExecutionChainCrypto Key}

/-- A row with a hash and a signature is verified and names the hash of the row before. -/
def Checked (self : ExecutionChainCrypto Key) (previous : Option ChainedExecution)
    (row : ChainedExecution) : Prop :=
  row.chainHash.isSome = true → row.chainSignature.isSome = true →
    self.verifyEntry row = .ok true ∧ row.previousChainHash = previous.bind ChainedExecution.chainHash

theorem verifyRow_iff {previous : Option ChainedExecution} {row : ChainedExecution} :
    self.verifyRow previous row = .ok none ↔ self.Checked previous row := by
  unfold verifyRow Checked
  by_cases hchained : (row.chainHash.isSome && row.chainSignature.isSome) = true
  · rw [if_pos hchained]
    rw [Bool.and_eq_true] at hchained
    simp only [hchained.1, hchained.2, true_imp_iff]
    cases hentry : self.verifyEntry row with
    | error e => simp [Bind.bind, Except.bind]
    | ok entryValid =>
      cases entryValid with
      | false => simp [Bind.bind, Except.bind, pure, Except.pure]
      | true =>
        by_cases hprevious : row.previousChainHash = previous.bind ChainedExecution.chainHash
        · simp [hprevious, Bind.bind, Except.bind, pure, Except.pure]
        · simp [hprevious, Bind.bind, Except.bind, pure, Except.pure]
  · rw [if_neg hchained]
    rw [Bool.and_eq_true, not_and] at hchained
    constructor
    · rintro - hhash hsignature
      exact absurd hsignature (hchained hhash)
    · rintro -
      rfl

theorem verifyRow_invalid {previous : Option ChainedExecution} {row : ChainedExecution}
    {result : ChainVerificationResult} (h : self.verifyRow previous row = .ok (some result)) :
    result.valid = false := by
  unfold verifyRow at h
  split at h
  · cases hentry : self.verifyEntry row with
    | error e =>
      rw [hentry] at h
      cases h
    | ok entryValid =>
      rw [hentry] at h
      simp only [Bind.bind, Except.bind] at h
      split at h
      · cases h
        rfl
      · split at h
        · cases h
          rfl
        · cases h
  · cases h

theorem getLast?_cons_or {first : ChainedExecution} {before : List ChainedExecution}
    {previous : Option ChainedExecution} :
    (first :: before).getLast?.or previous = before.getLast?.or (some first) := by
  rw [List.getLast?_cons]
  cases before.getLast? <;> rfl

theorem verifyFrom_iff {rows : List ChainedExecution} : ∀ {previous : Option ChainedExecution},
    (∃ result, self.verifyFrom previous rows = .ok result ∧ result.valid = true) ↔
      ∀ before row after, rows = before ++ row :: after →
        self.Checked (before.getLast?.or previous) row := by
  induction rows with
  | nil =>
    intro previous
    constructor
    · rintro - before row after h
      simp at h
    · rintro -
      exact ⟨_, rfl, rfl⟩
  | cons first rows ih =>
    intro previous
    rw [verifyFrom]
    cases hfirst : self.verifyRow previous first with
    | error e =>
      constructor
      · rintro ⟨result, ⟨⟩, -⟩
      · intro h
        have hchecked := verifyRow_iff.mpr (h [] first rows rfl)
        rw [List.getLast?_nil, Option.none_or, hfirst] at hchecked
        cases hchecked
    | ok found =>
      cases found with
      | some result =>
        constructor
        · rintro ⟨_, ⟨⟩, hvalid⟩
          rw [verifyRow_invalid hfirst] at hvalid
          cases hvalid
        · intro h
          have hchecked := verifyRow_iff.mpr (h [] first rows rfl)
          rw [List.getLast?_nil, Option.none_or, hfirst] at hchecked
          cases hchecked
      | none =>
        refine Iff.trans ih ⟨fun h before row after hrows => ?_, fun h before row after hrows => ?_⟩
        · rcases before with _ | ⟨b, before⟩
          · cases hrows
            exact verifyRow_iff.mp hfirst
          · cases hrows
            rw [getLast?_cons_or]
            exact h before row after rfl
        · have hchecked := h (first :: before) row after (by rw [hrows, List.cons_append])
          rw [getLast?_cons_or] at hchecked
          exact hchecked

/-- **The rows with a hash and a signature are checked**, each against the row before. -/
theorem accepts_iff {rows : List ChainedExecution} :
    self.Accepts rows ↔ ∀ before row after, rows = before ++ row :: after →
      self.Checked before.getLast? row := by
  refine verifyFrom_iff.trans (forall_congr' fun before => ?_)
  rw [Option.or_none]

end ExecutionChainCrypto

/-! ## The chains of the signer -/

/-- A link of a chain: an execution, the hash it names, and the bytes of both. -/
structure ChainLink where
  execution : Entity
  previousChainHash : Option JsString
  bytes : List UInt8
  serialized : serialize (canonicalChainEntry execution.data previousChainHash) = .ok bytes

theorem canonicalChainEntry_distinct (execution : Entity) (previousChainHash : Option JsString) :
    (canonicalChainEntry execution.data previousChainHash).distinct = true := by
  unfold canonicalChainEntry
  rw [Data.distinct, Bool.and_eq_true, decide_eq_true_eq, Data.distinctMembers_iff]
  constructor
  · rw [List.map_append, List.map_append, view_names, List.map_map]
    exact (by decide : (chainMembers ++ nullableChainMembers ++ [("previousChainHash" : JsString)]).Nodup)
  · rintro p hp
    rcases List.mem_append.mp hp with hp | hp
    · rcases List.mem_append.mp hp with hp | hp
      · exact view_distinct execution.distinct _ p hp
      · obtain ⟨k, -, rfl⟩ := List.mem_map.mp hp
        exact orNull_distinct (Data.get_distinct execution.distinct k)
    · rw [List.mem_singleton.mp hp]
      cases previousChainHash <;> rfl

/-- The bytes of an entry say which hash it names. -/
theorem previousChainHash_of_bytes {execution execution' : Entity}
    {previousChainHash previousChainHash' : Option JsString} {bytes : List UInt8}
    (h : serialize (canonicalChainEntry execution.data previousChainHash) = .ok bytes)
    (h' : serialize (canonicalChainEntry execution'.data previousChainHash') = .ok bytes) :
    previousChainHash = previousChainHash' := by
  have hagree := serialize_agree (canonicalChainEntry_distinct _ _) (canonicalChainEntry_distinct _ _)
    (by simp [canonicalChainEntry, Data.toJson?]) (by simp [canonicalChainEntry, Data.toJson?]) h h'
  have hget : ∀ (execution : Entity) (p : Option JsString),
      ((canonicalChainEntry execution.data p).get "previousChainHash").canon? =
        some (p.elim .null .str) := by
    rintro execution p
    cases p <;> rfl
  have hmember := hagree.get (canonicalChainEntry_distinct _ _) (canonicalChainEntry_distinct _ _)
    "previousChainHash"
  rw [Data.Agree, hget, hget, Option.some.injEq] at hmember
  cases previousChainHash <;> cases previousChainHash' <;> cases hmember <;> rfl

theorem ChainLink.named : HashChain.Named ChainLink.bytes ChainLink.previousChainHash := by
  rintro a b h
  exact previousChainHash_of_bytes a.serialized (b.serialized.trans (congrArg Except.ok h.symm))

section Signer
variable {Key : Type} (crypto : ExecutionChainCrypto Key) (chains : Set (List ChainLink))

/-- The chains a signer has made, whose key no one else has: each runs from its first
link, no other entry has a signature that is accepted, no two links have one hash,
and what the signer signs is accepted. -/
structure ChainSigner : Prop where
  linked : ∀ c ∈ chains,
    HashChain.Linked ChainLink.bytes crypto.sha256 ChainLink.previousChainHash none c
  unforgeable : ∀ (row : ChainedExecution) bytes keyId key value, serialize row.entry = .ok bytes →
    crypto.getPublicKey keyId = .ok key → crypto.signature.verify bytes value key = .ok true →
    ∃ c ∈ chains, ∃ link ∈ c, link.bytes = bytes
  collisionFree : Set.InjOn crypto.sha256 {bytes | ∃ c ∈ chains, ∃ link ∈ c, link.bytes = bytes}
  signs : ∀ bytes value, crypto.sign DEFAULT_KEY_ID bytes = .ok value →
    ∃ key, crypto.getPublicKey DEFAULT_KEY_ID = .ok key ∧ crypto.signature.verify bytes value key = .ok true

/-- The row has the content the signer chained under its hash. -/
def GenuineRow (row : ChainedExecution) : Prop :=
  ∃ c ∈ chains, ∃ link ∈ c, serialize row.entry = .ok link.bytes ∧
    row.chainHash = some (crypto.sha256 link.bytes)

/-- Every row that carries a hash is genuine, and each run of such rows, from where it
starts, begins a chain of the signer. -/
def Genuine (rows : List ChainedExecution) : Prop :=
  (∀ row ∈ rows, row.chainHash ≠ none → GenuineRow crypto chains row) ∧
    ∀ before run after, rows = before ++ run ++ after → run ≠ [] →
      (∀ row ∈ run, row.chainHash ≠ none) → (∀ last ∈ before.getLast?, last.chainHash = none) →
      ∃ c ∈ chains, run.map (fun row => serialize row.entry) <+:
        c.map (fun link => Except.ok link.bytes)

/-- A row that carries a hash and no signature is genuine and names the hash of the
row before it. -/
def StrippedGenuine (rows : List ChainedExecution) : Prop :=
  ∀ before row after, rows = before ++ row :: after → row.chainHash ≠ none →
    row.chainSignature = none → GenuineRow crypto chains row ∧
      row.previousChainHash = before.getLast?.bind ChainedExecution.chainHash

/-- A history as the signer wrote it and as it is read back: rows from before there
were chains, and rows chained to the row before them. -/
inductive Untouched : Option ChainedExecution → List ChainedExecution → Prop where
  | nil (previous) : Untouched previous []
  | legacy {previous row rows} (hhash : row.chainHash = none) (hsignature : row.chainSignature = none)
      (h : Untouched (some row) rows) : Untouched previous (row :: rows)
  | chained {previous rows execution fields} {stored : Entity}
      (hchain : crypto.chain execution (previous.bind ChainedExecution.chainHash) = .ok fields)
      (hstored : ReadBack stored.data execution.data)
      (h : Untouched (some ⟨stored, fields.previousChainHash, some fields.chainHash,
        some fields.chainSignature⟩) rows) :
      Untouched previous (⟨stored, fields.previousChainHash, some fields.chainHash,
        some fields.chainSignature⟩ :: rows)

end Signer

section Tampering
variable {Key : Type} {crypto : ExecutionChainCrypto Key} {chains : Set (List ChainLink)}

/-- A row that is verified is genuine. -/
theorem genuineRow_of_verified (hsigner : ChainSigner crypto chains) {row : ChainedExecution}
    (h : crypto.verifyEntry row = .ok true) : GenuineRow crypto chains row := by
  unfold ExecutionChainCrypto.verifyEntry at h
  split at h
  · rename_i chainHash chainSignature hhash hsignature
    unfold TrustRecordHasher.hash at h
    cases hbytes : serialize row.entry with
    | error e =>
      rw [hbytes] at h
      cases h
    | ok bytes =>
      rw [hbytes] at h
      change (if crypto.sha256 bytes ≠ chainHash then Except.ok false
        else crypto.getPublicKey chainSignature.keyId >>= fun publicKey =>
          SignatureVerifier.verify crypto.signature row.entry chainSignature.value publicKey) =
        .ok true at h
      split at h
      · cases h
      · rename_i hequal
        cases hkey : crypto.getPublicKey chainSignature.keyId with
        | error e =>
          rw [hkey] at h
          cases h
        | ok key =>
          rw [hkey] at h
          change SignatureVerifier.verify crypto.signature row.entry chainSignature.value key =
            .ok true at h
          unfold SignatureVerifier.verify at h
          rw [hbytes] at h
          obtain ⟨c, hc, link, hlink, rfl⟩ := hsigner.unforgeable row bytes _ key _ hbytes hkey h
          refine ⟨c, hc, link, hlink, hbytes, ?_⟩
          rw [hhash, not_not.mp hequal]
  · cases h

/-- In an accepted list whose stripped rows are genuine, every row that carries a hash
is genuine and names the hash of the row before it. -/
theorem genuineRow_of_accepted (hsigner : ChainSigner crypto chains) {rows : List ChainedExecution}
    (haccepts : crypto.Accepts rows) (hstripped : StrippedGenuine crypto chains rows)
    {before after : List ChainedExecution} {row : ChainedExecution}
    (hrows : rows = before ++ row :: after) (hhash : row.chainHash ≠ none) :
    GenuineRow crypto chains row ∧
      row.previousChainHash = before.getLast?.bind ChainedExecution.chainHash := by
  cases hsignature : row.chainSignature with
  | none => exact hstripped before row after hrows hhash hsignature
  | some signature =>
    obtain ⟨hverified, hprevious⟩ := ExecutionChainCrypto.accepts_iff.mp haccepts before row after
      hrows (Option.isSome_iff_ne_none.mpr hhash) (by rw [hsignature]; rfl)
    exact ⟨genuineRow_of_verified hsigner hverified, hprevious⟩

/-- The rows of a run, as links. -/
theorem exists_links {before : List ChainedExecution} {run : List ChainedExecution}
    (hrun : ∀ init row rest, run = init ++ row :: rest → GenuineRow crypto chains row ∧
      row.previousChainHash = (before ++ init).getLast?.bind ChainedExecution.chainHash) :
    ∃ links : List ChainLink,
      run.map (fun row => serialize row.entry) = links.map (fun link => Except.ok link.bytes) ∧
      (∀ link ∈ links, ∃ c ∈ chains, ∃ signed ∈ c, signed.bytes = link.bytes) ∧
      HashChain.Linked ChainLink.bytes crypto.sha256 ChainLink.previousChainHash
        (before.getLast?.bind ChainedExecution.chainHash) links := by
  induction run generalizing before with
  | nil => exact ⟨[], rfl, by simp, trivial⟩
  | cons row run ih =>
    obtain ⟨⟨c, hc, signed, hsigned, hbytes, hhash⟩, hprevious⟩ := hrun [] row run rfl
    have hrest : ∀ init next rest, run = init ++ next :: rest →
        GenuineRow crypto chains next ∧ next.previousChainHash =
          (before ++ [row] ++ init).getLast?.bind ChainedExecution.chainHash := by
      rintro init next rest hnext
      rw [List.append_assoc, List.singleton_append]
      exact hrun (row :: init) next rest (by rw [hnext, List.cons_append])
    obtain ⟨links, hlinks, hchains, hlinked⟩ := ih hrest
    refine ⟨⟨row.execution, row.previousChainHash, signed.bytes, hbytes⟩ :: links, ?_, ?_, ?_⟩
    · rw [List.map_cons, List.map_cons, hlinks, hbytes]
    · rintro link hlink
      rcases List.mem_cons.mp hlink with rfl | hlink
      · exact ⟨c, hc, signed, hsigned, rfl⟩
      · exact hchains link hlink
    · rw [List.append_nil] at hprevious
      rw [List.getLast?_concat, Option.bind_some, hhash] at hlinked
      exact ⟨hprevious, hlinked⟩

/-- A list ends in a run of rows that carry a hash. -/
theorem exists_run (rows : List ChainedExecution) : ∃ before run, rows = before ++ run ∧
    (∀ row ∈ run, row.chainHash ≠ none) ∧ ∀ last ∈ before.getLast?, last.chainHash = none := by
  induction rows using List.reverseRecOn with
  | nil => exact ⟨[], [], rfl, by simp, by simp⟩
  | append_singleton rows row ih =>
    by_cases hhash : row.chainHash = none
    · exact ⟨rows ++ [row], [], (List.append_nil _).symm, by simp, by simpa using hhash⟩
    · obtain ⟨before, run, rfl, hrun, hbefore⟩ := ih
      refine ⟨before, run ++ [row], List.append_assoc _ _ _, ?_, hbefore⟩
      rintro r hr
      rcases List.mem_append.mp hr with hr | hr
      · exact hrun r hr
      · rw [List.mem_singleton.mp hr]
        exact hhash

/-- In a genuine list a row that carries a hash names the hash of the row before it. -/
theorem previousChainHash_of_genuine (hsigner : ChainSigner crypto chains)
    {rows before after : List ChainedExecution} {row : ChainedExecution}
    (hgenuine : Genuine crypto chains rows) (hrows : rows = before ++ row :: after)
    (hhash : row.chainHash ≠ none) :
    row.previousChainHash = before.getLast?.bind ChainedExecution.chainHash := by
  obtain ⟨start, run, rfl, hrun, hstart⟩ := exists_run before
  obtain ⟨c, hc, suffix, hprefix⟩ := hgenuine.2 start (run ++ [row]) after (by simp [hrows])
    (by simp) (by
      rintro r hr
      rcases List.mem_append.mp hr with hr | hr
      · exact hrun r hr
      · rw [List.mem_singleton.mp hr]
        exact hhash) hstart
  rw [List.map_append, List.append_assoc] at hprefix
  obtain ⟨init, rest, rfl, hinit, hrest⟩ := List.map_eq_append_iff.mp hprefix.symm
  obtain ⟨link, links, rfl, hlink, -⟩ := List.map_eq_cons_iff.mp hrest
  have hlinked := (HashChain.linked_append.mp (hsigner.linked _ hc)).2.1
  rw [previousChainHash_of_bytes hlink.symm link.serialized, hlinked]
  rcases List.eq_nil_or_concat' run with rfl | ⟨run, last, rfl⟩
  · -- the row starts the run
    obtain rfl := List.map_eq_nil_iff.mp hinit
    rw [List.append_nil, HashChain.lastHash_nil]
    cases hlast : start.getLast? with
    | none => rfl
    | some last => exact (hstart last hlast).symm
  · -- the row follows the last of the run
    rw [List.map_append] at hinit
    obtain ⟨init, lasts, rfl, -, hlasts⟩ := List.map_eq_append_iff.mp hinit
    obtain ⟨before, others, rfl, hbefore, hnil⟩ := List.map_eq_cons_iff.mp hlasts
    obtain rfl := List.map_eq_nil_iff.mp hnil
    obtain ⟨c', hc', link', hlink', hbytes, hlasthash⟩ := hgenuine.1 last (by simp [hrows])
      (hrun last (by simp))
    rw [HashChain.lastHash_concat, ← List.append_assoc, List.getLast?_concat, Option.bind_some,
      hlasthash, Except.ok.inj (hbefore.trans hbytes)]

/-- **An accepted list is genuine exactly when the rows that carry a hash and no
signature are.** -/
theorem genuine_iff (hsigner : ChainSigner crypto chains) {rows : List ChainedExecution}
    (haccepts : crypto.Accepts rows) :
    Genuine crypto chains rows ↔ StrippedGenuine crypto chains rows := by
  constructor
  · rintro hgenuine before row after hrows hhash -
    exact ⟨hgenuine.1 row (by simp [hrows]) hhash,
      previousChainHash_of_genuine hsigner hgenuine hrows hhash⟩
  · intro hstripped
    refine ⟨fun row hrow hhash => ?_, fun before run after hrows hne hrun hbefore => ?_⟩
    · obtain ⟨before, after, hrows⟩ := List.append_of_mem hrow
      exact (genuineRow_of_accepted hsigner haccepts hstripped hrows hhash).1
    · have hgenuine : ∀ init row rest, run = init ++ row :: rest → GenuineRow crypto chains row ∧
          row.previousChainHash = (before ++ init).getLast?.bind ChainedExecution.chainHash := by
        rintro init row rest rfl
        have hsplit : rows = (before ++ init) ++ row :: (rest ++ after) := by simp [hrows]
        exact genuineRow_of_accepted hsigner haccepts hstripped hsplit (hrun row (by simp))
      obtain ⟨links, hlinks, hchains, hlinked⟩ := exists_links hgenuine
      have hfirst : before.getLast?.bind ChainedExecution.chainHash = none := by
        cases hlast : before.getLast? with
        | none => rfl
        | some last => exact hbefore last hlast
      rw [hfirst] at hlinked
      have hnonempty : links ≠ [] := by
        rintro rfl
        exact hne (List.map_eq_nil_iff.mp hlinks)
      obtain ⟨c, hc, hprefix⟩ := hlinked.prefix_of_links ChainLink.named hsigner.linked
        hsigner.collisionFree hchains hnonempty
      refine ⟨c, hc, ?_⟩
      have hmap := List.IsPrefix.map (fun bytes => (Except.ok bytes : Except JsString _)) hprefix
      rw [List.map_map, List.map_map] at hmap
      rw [hlinks]
      exact hmap

theorem verifyFrom_cons {previous : Option ChainedExecution} {row : ChainedExecution}
    {rows : List ChainedExecution} (hrow : crypto.Checked previous row)
    (hrows : ∃ result, crypto.verifyFrom (some row) rows = .ok result ∧ result.valid = true) :
    ∃ result, crypto.verifyFrom previous (row :: rows) = .ok result ∧ result.valid = true := by
  rw [ExecutionChainCrypto.verifyFrom, ExecutionChainCrypto.verifyRow_iff.mpr hrow]
  exact hrows

/-- What the signer chained is verified when it is read back. -/
theorem verified_of_chained (hsigner : ChainSigner crypto chains) {execution stored : Entity}
    {previousChainHash : Option JsString} {fields : ExecutionChainFields}
    (hchain : crypto.chain execution previousChainHash = .ok fields)
    (hstored : ReadBack stored.data execution.data) :
    crypto.verifyEntry ⟨stored, fields.previousChainHash, some fields.chainHash,
        some fields.chainSignature⟩ = .ok true ∧ fields.previousChainHash = previousChainHash := by
  unfold ExecutionChainCrypto.chain TrustRecordHasher.hash at hchain
  cases hbytes : serialize (canonicalChainEntry execution.data previousChainHash) with
  | error e =>
    simp only [hbytes, Bind.bind, Except.bind, Except.map] at hchain
    cases hchain
  | ok bytes =>
    simp only [hbytes, Bind.bind, Except.bind, Except.map] at hchain
    cases hsign : crypto.sign DEFAULT_KEY_ID bytes with
    | error e =>
      simp only [hsign] at hchain
      cases hchain
    | ok value =>
      simp only [hsign] at hchain
      cases hchain
      obtain ⟨key, hkey, hverify⟩ := hsigner.signs bytes value hsign
      have hread := (canonicalChainEntry_readBack hstored execution.distinct
        (datesValid_of_serialize hbytes)).trans hbytes
      refine ⟨?_, rfl⟩
      unfold ExecutionChainCrypto.verifyEntry TrustRecordHasher.hash ChainedExecution.entry
        SignatureVerifier.verify
      simp only [hread, Bind.bind, Except.bind, Except.map, hkey, ne_eq, not_true_eq_false,
        if_false]
      exact hverify

/-- **Every untouched history is accepted.** -/
theorem accepts_untouched (hsigner : ChainSigner crypto chains) {rows : List ChainedExecution}
    (h : Untouched crypto none rows) : crypto.Accepts rows := by
  have hfrom : ∀ {previous rows}, Untouched crypto previous rows →
      ∃ result, crypto.verifyFrom previous rows = .ok result ∧ result.valid = true := by
    intro previous rows h
    induction h with
    | nil => exact ⟨_, rfl, rfl⟩
    | legacy hhash hsignature _ ih =>
      refine verifyFrom_cons ?_ ih
      rintro hchained
      rw [hhash] at hchained
      cases hchained
    | chained hchain hstored _ ih =>
      obtain ⟨hverified, hprevious⟩ := verified_of_chained hsigner hchain hstored
      refine verifyFrom_cons ?_ ih
      exact fun _ _ => ⟨hverified, hprevious⟩
  exact hfrom h

/-- **Tamper evidence of the execution chain**: of an accepted list only the rows that
lost their signature and kept their hash can be other than the signer wrote them, and
what the signer wrote is accepted. -/
theorem tamper_evident (hsigner : ChainSigner crypto chains) :
    (∀ rows, crypto.Accepts rows →
      (Genuine crypto chains rows ↔ StrippedGenuine crypto chains rows)) ∧
    ∀ rows, Untouched crypto none rows → crypto.Accepts rows :=
  ⟨fun _ => genuine_iff hsigner, fun _ => accepts_untouched hsigner⟩

end Tampering

/-! ## A stripped signature -/

namespace Stripping

/-- An execution in a given state. -/
def execution (executionId status : String) : Entity where
  members := [("executionId", .str executionId), ("businessTransactionId", .str "transaction"),
    ("decision", .obj []), ("status", .str status), ("mode", .str "SYNC"),
    ("startedAt", .date (some 0))]
  distinct := rfl

def digest (bytes : List UInt8) : JsString := ⟨bytes.map UInt8.toUInt16⟩

theorem digest_injective : Function.Injective digest := by
  intro bytes other h
  refine List.map_injective_iff.mpr (fun a b hab => ?_) (congrArg JsString.units h)
  exact UInt8.toNat_inj.mp (congrArg UInt16.toNat hab)

/-- The bytes of the failed execution, chained first. -/
@[irreducible] def first : List UInt8 :=
  (serialize (canonicalChainEntry (execution "first" "FAILED").data none)).toOption.getD []

/-- The bytes of the execution chained to it. -/
@[irreducible] def second : List UInt8 :=
  (serialize (canonicalChainEntry (execution "second" "COMPLETED").data
    (some (digest first)))).toOption.getD []

/-- A signer that has signed these. -/
def crypto : ExecutionChainCrypto Unit where
  sha256 := digest
  signature := ⟨"ed25519", fun bytes _ _ => .ok (decide (bytes = first ∨ bytes = second))⟩
  sign _ bytes := if bytes = first ∨ bytes = second then .ok [] else .error "not signed"
  getPublicKey _ := .ok ⟨"ed25519", ()⟩

def signature : Signature := ⟨"ed25519", DEFAULT_KEY_ID, []⟩

/-- The links. -/
def firstLink : ChainLink where
  execution := execution "first" "FAILED"
  previousChainHash := none
  bytes := first
  serialized := by decide +kernel

def secondLink : ChainLink where
  execution := execution "second" "COMPLETED"
  previousChainHash := some (digest first)
  bytes := second
  serialized := by decide +kernel

/-- A row from before there were chains. -/
def legacy : ChainedExecution := ⟨execution "legacy" "COMPLETED", none, none, none⟩

/-- The row of the first link, for an execution in a given state. -/
def firstRow (status : String) (chainSignature : Option Signature) : ChainedExecution where
  execution := execution "first" status
  previousChainHash := none
  chainHash := some (digest first)
  chainSignature := chainSignature

def secondRow : ChainedExecution where
  execution := execution "second" "COMPLETED"
  previousChainHash := some (digest first)
  chainHash := some (digest second)
  chainSignature := some signature

theorem chainSigner : ChainSigner crypto {[firstLink, secondLink]} where
  linked := by
    rintro _ rfl
    exact ⟨rfl, rfl, trivial⟩
  unforgeable := by
    rintro row bytes keyId key value - - hverify
    have hsigned : bytes = first ∨ bytes = second := of_decide_eq_true (Except.ok.inj hverify)
    rcases hsigned with rfl | rfl
    · exact ⟨_, rfl, firstLink, List.mem_cons_self, rfl⟩
    · exact ⟨_, rfl, secondLink, List.mem_cons_of_mem _ (List.mem_singleton_self _), rfl⟩
  collisionFree := digest_injective.injOn
  signs := by
    intro bytes value hsign
    refine ⟨⟨"ed25519", ()⟩, rfl, ?_⟩
    change (if bytes = first ∨ bytes = second then _ else _) = _ at hsign
    split at hsign
    · rename_i hbytes
      exact congrArg Except.ok (decide_eq_true hbytes)
    · cases hsign

/-- A link is what the signer chains. -/
theorem chain_link (link : ChainLink) (h : link.bytes = first ∨ link.bytes = second) :
    crypto.chain link.execution link.previousChainHash =
      .ok ⟨link.previousChainHash, digest link.bytes, signature⟩ := by
  have hsign : crypto.sign DEFAULT_KEY_ID link.bytes = .ok [] := if_pos h
  unfold ExecutionChainCrypto.chain TrustRecordHasher.hash
  simp only [link.serialized, hsign, Bind.bind, Except.bind, Except.map]
  rfl

theorem untouched :
    Untouched crypto none [legacy, firstRow "FAILED" (some signature), secondRow] := by
  have hfirst : crypto.chain (execution "first" "FAILED")
      ((some legacy).bind ChainedExecution.chainHash) = .ok ⟨none, digest first, signature⟩ :=
    chain_link firstLink (.inl rfl)
  have hsecond : crypto.chain (execution "second" "COMPLETED")
      ((some (firstRow "FAILED" (some signature))).bind ChainedExecution.chainHash) =
        .ok ⟨some (digest first), digest second, signature⟩ :=
    chain_link secondLink (.inr rfl)
  have hstored : ∀ executionId status : String,
      ReadBack (execution executionId status).data (execution executionId status).data :=
    fun executionId status => .refl (execution executionId status).distinct rfl
  have hrest := Untouched.chained hsecond (hstored _ _) (.nil _)
  have hchained := Untouched.chained hfirst (hstored _ _) hrest
  exact .legacy rfl rfl hchained

end Stripping

open Stripping in
/-- **A failed execution turned into a completed one** is accepted, once its signature
is taken out. -/
theorem stripped_accepted : ChainSigner crypto {[firstLink, secondLink]} ∧
    crypto.Accepts [firstRow "COMPLETED" none] ∧
    ¬ Genuine crypto {[firstLink, secondLink]} [firstRow "COMPLETED" none] := by
  refine ⟨chainSigner, ⟨_, rfl, rfl⟩, fun hgenuine => ?_⟩
  obtain ⟨_, rfl, link, hlink, hbytes, -⟩ :=
    hgenuine.1 (firstRow "COMPLETED" none) (List.mem_singleton_self _) (by rintro ⟨⟩)
  have hfirst : serialize (firstRow "COMPLETED" none).entry ≠ .ok first := by decide +kernel
  have hsecond : serialize (firstRow "COMPLETED" none).entry ≠ .ok second := by decide +kernel
  rcases List.mem_pair.mp hlink with rfl | rfl
  · exact hfirst hbytes
  · exact hsecond hbytes

open Stripping in
/-- A legacy row and two chained ones are accepted, and genuine. -/
theorem tamper_evident_signed :
    crypto.Accepts [legacy, firstRow "FAILED" (some signature), secondRow] ∧
      Genuine crypto {[firstLink, secondLink]}
        [legacy, firstRow "FAILED" (some signature), secondRow] := by
  have haccepts := (tamper_evident chainSigner).2 _ untouched
  refine ⟨haccepts, ((tamper_evident chainSigner).1 _ haccepts).mpr ?_⟩
  -- every row that carries a hash carries its signature
  intro before row after hrows hhash hsignature
  have hmem : row ∈ [legacy, firstRow "FAILED" (some signature), secondRow] := by simp [hrows]
  simp only [List.mem_cons, List.not_mem_nil, or_false] at hmem
  rcases hmem with rfl | rfl | rfl
  · exact absurd rfl hhash
  · cases hsignature
  · cases hsignature

end Parmana.Crypto
