import FesTerm.Sftp.Proofs.PathProofs
import FesTerm.Sftp.Proofs.WriteLoopProofs

/-!
# Proofs: an upload destroys no data

A target that exists is changed by an atomic rename alone, which replaces it by the complete new content.
The fallback that removes it first is never taken, for the session hands on the status that refuses the
atomic rename as a packet, and `rename_replace` takes every such packet for a broken connection.
-/

namespace FesTerm

open Dialogue UploadWorld List

variable {ν : Type} [DecidableEq ν] {resolution : Resolution ν}

/-! ## Requests that change nothing -/

theorem lstat_ensures (path : FilePath) (world : UploadWorld ν) :
    Ensures (UploadAnswers resolution) (fun result world' => world' = world ∧
        (result = .ok none → world.nodes (resolution.resolve path) = none))
      (lstat path).run world := by
  refine ensures_seq.mpr (ensures_question.mpr fun reply world' hreply => ?_)
  cases hreply with
  | lstat hnode => exact ⟨rfl, nofun⟩
  | missing hnode => exact ⟨rfl, fun _ => hnode⟩
  | lstatFailed herror =>
    rename_i error
    cases error with
    | status code text =>
      cases code with
      | noSuchFile => exact absurd rfl (herror text)
      | _ => exact ⟨rfl, nofun⟩
    | _ => exact ⟨rfl, nofun⟩

def Idle {α : Type} (resolution : Resolution ν) (part : Uploading α) : Prop :=
  ∀ world, Ensures (UploadAnswers resolution) (fun _ world' => world' = world) part.run world

variable {α : Type}

theorem Idle.seq {β : Type} {part : Uploading α} {next : α → Uploading β} (h : Idle resolution part)
    (hnext : ∀ result, Idle resolution (next result)) : Idle resolution (part >>= next) := by
  intro world
  refine (h world).seq ?_ fun _ _ hsame => hsame
  rintro result world' rfl
  exact hnext result world'

theorem idle_pure (result : α) : Idle resolution (pure result : Uploading α) := fun _ => rfl

theorem idle_throw (error : SftpError) : Idle resolution (throw error : Uploading α) := fun _ => rfl

theorem idle_liftExcept (result : Except SftpError α) :
    Idle resolution (liftExcept result : Uploading α) := by
  intro world
  cases result with
  | ok | error => exact rfl

theorem Idle.attempt {part : Uploading α} (h : Idle resolution part) :
    Idle resolution (attempt part) := fun world => ensures_attempt.mpr (h world)

theorem idle_lstat (path : FilePath) : Idle resolution (lstat path) := fun world =>
  (lstat_ensures path world).mono fun _ _ h => h.1

theorem idle_statEntry (path : FilePath) : Idle resolution (statEntry path) := by
  refine (idle_liftExcept _).seq fun path => (idle_lstat path).seq fun found => ?_
  cases found with
  | none => exact idle_throw _
  | some attributes =>
    dsimp only
    by_cases hlink : (Entry.fromAttrs attributes).kind = .symlink
    · rw [if_pos hlink]
      intro world
      refine ensures_seq.mpr (ensures_question.mpr fun reply world' hreply => ?_)
      cases hreply
      refine ensures_seq.mpr (ensures_question.mpr fun reply world' hreply => ?_)
      cases hreply
      cases reply with
      | ok => exact rfl
      | error => exact rfl
    · rw [if_neg hlink]
      exact idle_pure _

theorem idle_remoteExisting (path : FilePath) : Idle resolution (remoteExisting path) := by
  refine (idle_statEntry path).attempt.seq fun found => ?_
  cases found with
  | ok => exact idle_pure _
  | error error =>
    cases error with
    | notFound => exact idle_pure _
    | _ => exact idle_throw _

theorem idle_suggestName (remoteDir name : FilePath) (numbers : List Nat) :
    Idle resolution (suggestName remoteDir name numbers) := by
  induction numbers with
  | nil => exact idle_throw _
  | cons number numbers ih =>
    refine (idle_liftExcept _).seq fun path => (idle_remoteExisting path).seq fun existing => ?_
    by_cases hfree : existing.isNone
    · rw [if_pos hfree]
      exact idle_pure _
    · rw [if_neg hfree]
      exact ih

/-! ## Commits without a replacement -/

/-- The target is what it was. -/
def Intact (nodes : ν → Option RemoteNode) (target : ν) (world : UploadWorld ν) : Prop :=
  world.nodes target = nodes target

variable {nodes : ν → Option RemoteNode} {target location : ν} {world : UploadWorld ν}

theorem Intact.setNode {node : Option RemoteNode} (h : Intact nodes target world) (hlocation : location ≠ target) :
    Intact nodes target (world.setNode location node) := (setNode_of_ne _ _ hlocation.symm).trans h

theorem Intact.move {source : ν} (h : Intact nodes target world) (hsource : source ≠ target)
    (hlocation : location ≠ target) : Intact nodes target (world.move source location) :=
  (h.setNode hsource).setNode hlocation

variable {directory name path temp remoteDir : FilePath} {commit : Commit}

omit [DecidableEq ν] in
theorem resolve_normalizeRemote {path' : FilePath}
    (hjoin : directory.joinRemote name = .ok path) (h : path.normalizeRemote = .ok path') :
    resolution.resolve path' = resolution.resolve path := by
  rcases FilePath.normalizeRemote_joinRemote hjoin h with rfl | rfl
  · rfl
  · exact (resolution.here path').symm

theorem Intact.renameNoReplace (h : Intact nodes target world)
    (hexists : nodes target ≠ none) (hjoin : directory.joinRemote name = .ok temp)
    (htemp : resolution.resolve temp ≠ target) (dest : FilePath) :
    Ensures (UploadAnswers resolution) (fun _ => Intact nodes target) (renameNoReplace temp dest).run world := by
  refine ensures_seq.mpr (ensures_liftExcept.mpr ?_)
  cases hsource : temp.normalizeRemote with
  | error => exact h
  | ok source =>
    refine ensures_seq.mpr (ensures_liftExcept.mpr ?_)
    cases hdest : dest.normalizeRemote with
    | error => exact h
    | ok destination =>
      refine ensures_seq.mpr (ensures_liftExcept.mpr ?_)
      cases hname : destination.fileNameRemote with
      | error => exact h
      | ok =>
        refine ensures_seq.mpr ((lstat_ensures destination world).mono ?_)
        rintro found world' ⟨rfl, hfree⟩
        cases found with
        | error => exact h
        | ok found =>
          cases found with
          | some attributes => exact h
          | none =>
            refine ensures_seq.mpr (ensures_question.mpr fun reply world'' hreply => ?_)
            cases hreply with
            | renamed hnode =>
              refine h.move ?_ ?_
              · rw [resolve_normalizeRemote hjoin hsource]
                exact htemp
              · intro heq
                have hnone := hfree rfl
                rw [heq] at hnone
                exact hexists (h.symm.trans hnone)
            | notRenamed =>
              refine ensures_seq.mpr (ensures_attempt.mpr ((idle_lstat destination _).mono ?_))
              rintro found world' rfl
              cases found with
              | error => exact h
              | ok found =>
                cases found with
                | none => exact h
                | some => exact h

variable {base : FilePath}

theorem Intact.commitAttempt {attempted : Nat}
    {next : Option (Uploading FilePath)} (h : Intact nodes target world) (hexists : nodes target ≠ none)
    (hjoin : directory.joinRemote name = .ok temp) (htemp : resolution.resolve temp ≠ target)
    (hnext : ∀ part ∈ next, ∀ {world}, Intact nodes target world →
      Ensures (UploadAnswers resolution) (fun _ => Intact nodes target) part.run world) :
    Ensures (UploadAnswers resolution) (fun _ => Intact nodes target)
      (commitAttempt temp remoteDir base attempted next).run world := by
  refine ensures_seq.mpr (ensures_liftExcept.mpr ?_)
  cases remoteDir.joinRemote (if attempted = 0 then base else base.keepBothName attempted) with
  | error => exact h
  | ok dest =>
    refine ensures_seq.mpr (ensures_attempt.mpr ((h.renameNoReplace hexists hjoin htemp dest).mono ?_))
    intro result world' hintact
    cases result with
    | ok => exact hintact
    | error error =>
      cases error with
      | alreadyExists message =>
        cases next with
        | none => exact hintact
        | some part => exact hnext part rfl hintact
      | _ => exact hintact

theorem Intact.commitNoClobber {retryNumbered : Bool}
    (hexists : nodes target ≠ none) (hjoin : directory.joinRemote name = .ok temp)
    (htemp : resolution.resolve temp ≠ target) (left : Nat) {world : UploadWorld ν}
    (h : Intact nodes target world) : Ensures (UploadAnswers resolution) (fun _ => Intact nodes target)
      (commitNoClobber temp remoteDir base retryNumbered left).run world := by
  induction left generalizing world with
  | zero => exact h.commitAttempt hexists hjoin htemp fun _ hmem => (Option.not_mem_none _ hmem).elim
  | succ left ih =>
    refine h.commitAttempt hexists hjoin htemp fun part hmem => ?_
    cases retryNumbered with
    | false => exact (Option.not_mem_none _ hmem).elim
    | true =>
      cases hmem
      exact ih

/-! ## Commits with a replacement -/

/-- The temporary file holds the complete new content, and only policies were given before it was opened. -/
structure Ready (nodes : ν → Option RemoteNode) (source : List UInt8) (policies : List ConflictPolicy) (temp : ν)
    (world : UploadWorld ν) : Prop where
  others : ∀ location, location ≠ temp → world.nodes location = nodes location
  file : world.nodes temp = some (.file source)
  events : world.events = policies.map .policy ++ [.opened temp]

/-- How a commit ends: one that fails leaves the target as it was. -/
inductive Committed {α : Type} (nodes : ν → Option RemoteNode) (source : List UInt8) (target : ν) :
    Except SftpError α → UploadWorld ν → Prop
  | intact {result : Except SftpError α} {world : UploadWorld ν} (h : Intact nodes target world) :
    Committed nodes source target result world
  | replaced {result : α} {world : UploadWorld ν} (hpolicy : .policy .replace ∈ world.events)
    (htarget : world.nodes target = some (.file source)) :
    Committed nodes source target (.ok result) world

variable {source : List UInt8} {policies : List ConflictPolicy} {temp : ν}

omit [DecidableEq ν] in
theorem Ready.intact (h : Ready nodes source policies temp world) (htemp : temp ≠ target) :
    Intact nodes target world :=
  h.others target htemp.symm

variable {dest : FilePath}

/-- Whatever else the server answers, the new name is taken atomically or not at all. -/
theorem Ready.renameReplace (h : Ready nodes source policies (resolution.resolve path) world)
    (hpolicy : .replace ∈ policies) (htemp : resolution.resolve path ≠ resolution.resolve dest) :
    Ensures (UploadAnswers resolution) (Committed nodes source (resolution.resolve dest))
      (renameReplace path dest).run world := by
  have hintact := h.intact htemp
  refine ensures_seq.mpr (ensures_question.mpr fun reply world' hreply => ?_)
  cases hreply with
  | posixRenamed hnode =>
    refine .replaced ?_ ((move_target _ _ _).trans h.file)
    rw [move_events, h.events]
    exact mem_append_left _ (List.mem_map_of_mem hpolicy)
  | notPosixRenamed hresult hpacket =>
    cases reply with
    | ok packet =>
      cases packet with
      | other => exact .intact hintact
      | status code =>
        cases code with
        | ok => exact absurd rfl hresult
        | _ => exact .intact hintact
    | error error =>
      cases error with
      | status code text => exact absurd rfl (hpacket code text)
      | _ => exact .intact hintact

theorem Committed.of_intact {dialogue : Uploading α}
    (h : Ensures (UploadAnswers resolution) (fun _ => Intact nodes target) dialogue.run world) :
    Ensures (UploadAnswers resolution) (Committed nodes source target) dialogue.run world :=
  h.mono fun _ _ hintact => .intact hintact

variable {modified : Option Int} {random : NameSeed}

theorem Ready.finishUpload (h : Ready nodes source policies (resolution.resolve path) world)
    (hexists : nodes target ≠ none) (htemp : resolution.resolve path ≠ target)
    (hpath : remoteDir.joinRemote (tempName random) = .ok path)
    (hcommit : commit = .replace → .replace ∈ policies ∧
      ∃ dest, remoteDir.joinRemote name = .ok dest ∧ resolution.resolve dest = target) :
    Ensures (UploadAnswers resolution) (Committed nodes source target)
      (finishUpload path remoteDir name modified commit).run world := by
  have hcommitted : Ensures (UploadAnswers resolution) (Committed nodes source target)
      (commitUpload path remoteDir name commit).run world := by
    cases commit with
    | noClobber retryNumbered =>
      exact Committed.of_intact ((h.intact htemp).commitNoClobber hexists hpath htemp _)
    | replace =>
      obtain ⟨hpolicy, dest, hdest, rfl⟩ := hcommit rfl
      refine ensures_seq.mpr (ensures_liftExcept.mpr ?_)
      rw [hdest]
      refine (h.renameReplace hpolicy htemp).seq ?_ ?_
      · intro _ world' hcommitted
        cases hcommitted with
        | intact hintact => exact .intact hintact
        | replaced hpolicy htarget => exact .replaced hpolicy htarget
      · intro error world' hcommitted
        cases hcommitted with
        | intact hintact => exact .intact hintact
  unfold FesTerm.finishUpload
  cases modified with
  | none => exact hcommitted
  | some modified =>
    dsimp only
    by_cases hseconds : 0 ≤ modified ∧ modified < 2 ^ 32
    · rw [if_pos hseconds]
      refine ensures_seq.mpr (ensures_question.mpr fun reply world' hreply => ?_)
      cases hreply
      exact hcommitted
    · rw [if_neg hseconds]
      exact hcommitted

/-! ## The upload -/

/-- How an upload with an existing target ends. -/
inductive UploadEnd (nodes : ν → Option RemoteNode) (source : List UInt8) (target : ν) (world : UploadWorld ν) : Prop
  | intact (h : Intact nodes target world)
  | replaced (hpolicy : .policy .replace ∈ world.events) (htarget : world.nodes target = some (.file source))

theorem Ready.sendAndCommit_of_begins (config : TransferConfig) (total : Nat) (modified : Option Int)
    (hbegins : Begins (resolution.resolve path) world) (hsource : world.source = source)
    (hothers : ∀ location, location ≠ resolution.resolve path → world.nodes location = nodes location)
    (hevents : world.events = policies.map .policy ++ [.opened (resolution.resolve path)])
    (hexists : nodes target ≠ none) (htemp : resolution.resolve path ≠ target)
    (hpath : remoteDir.joinRemote (tempName random) = .ok path)
    (hcommit : commit = .replace → .replace ∈ policies ∧
      ∃ dest, remoteDir.joinRemote name = .ok dest ∧ resolution.resolve dest = target) :
    Ensures (UploadAnswers resolution) (Committed nodes source target)
      (sendAndCommit config total modified path remoteDir name commit).run world := by
  refine ensures_seq.mpr (ensures_attempt.mpr ((hbegins.writeLoop config).mono ?_))
  intro sent world' hsent
  refine ensures_seq.mpr (ensures_question.mpr fun reply world'' hreply => ?_)
  cases hreply
  cases sent with
  | error error =>
    exact .intact ((hsent.others target htemp.symm).trans (hothers target htemp.symm))
  | ok =>
    have hready : Ready nodes source policies (resolution.resolve path) { world' with handle := none } := by
      refine ⟨fun location hlocation => ?_, hsource ▸ hsent.file, hsent.events.trans hevents⟩
      exact (hsent.others location hlocation).trans (hothers location hlocation)
    cases reply with
    | ok => exact hready.finishUpload hexists htemp hpath hcommit
    | error error => exact .intact (hready.intact htemp)

/-- The clean-up after a failure, which removes the temporary file. -/
theorem Intact.cleanUp {error : SftpError} (h : Intact nodes target world)
    (htemp : resolution.resolve path ≠ target) :
    Ensures (UploadAnswers resolution) (fun _ => UploadEnd nodes source target)
      (do
        if let .error _ ← attempt (removeFile path) then
          Uploading.ask (.leftoverRemoteTemp path)
        throw error : Uploading Outcome).run world := by
  refine ensures_seq.mpr (ensures_attempt.mpr ?_)
  refine ensures_seq.mpr (ensures_question.mpr fun reply world' hreply => ?_)
  cases hreply with
  | removed hnode => exact .intact (h.setNode htemp)
  | notRemoved =>
    refine ensures_seq.mpr (ensures_question.mpr fun reply world'' hreply => ?_)
    cases hreply
    exact .intact h

variable {config : TransferConfig}

theorem transmit_ensures (policies : List ConflictPolicy) {total : Nat}
    (hworld : world = { UploadWorld.start nodes source with events := policies.map .policy })
    (hexists : nodes target ≠ none)
    (hcommit : commit = .replace → .replace ∈ policies ∧
      ∃ dest, remoteDir.joinRemote name = .ok dest ∧ resolution.resolve dest = target) :
    Ensures (UploadAnswers resolution) (fun _ => UploadEnd nodes source target)
      (transmit config total modified remoteDir name commit).run world := by
  have hintact : Intact nodes target world := by
    subst hworld
    rfl
  refine ensures_seq.mpr (ensures_question.mpr fun random world' hreply => ?_)
  cases hreply
  refine ensures_seq.mpr (ensures_liftExcept.mpr ?_)
  cases hpath : remoteDir.joinRemote (tempName random) with
  | error => exact .intact hintact
  | ok path =>
    refine ensures_seq.mpr (ensures_question.mpr fun reply world' hreply => ?_)
    cases hreply with
    | notOpened => exact .intact hintact
    | opened hnode =>
      have htemp : resolution.resolve path ≠ target := by
        rintro rfl
        exact hexists (hintact.symm.trans hnode)
      subst hworld
      have hbegins : Begins (resolution.resolve path)
          { (({ UploadWorld.start nodes source with events := policies.map .policy } : UploadWorld ν).setNode
            (resolution.resolve path) (some (.file []))).record (.opened (resolution.resolve path)) with
              handle := some (resolution.resolve path) } :=
        ⟨rfl, setNode_self _ _ _, rfl, rfl, rfl, rfl⟩
      have hcommitted := Ready.sendAndCommit_of_begins config total modified hbegins rfl
        (fun location hlocation => setNode_of_ne _ _ hlocation) rfl hexists htemp hpath hcommit
      refine ensures_seq.mpr (ensures_attempt.mpr (hcommitted.mono ?_))
      intro result world' hcommitted
      cases result with
      | ok finalName =>
        cases hcommitted with
        | intact hintact => exact .intact hintact
        | replaced hpolicy htarget => exact .replaced hpolicy htarget
      | error error =>
        cases hcommitted with
        | intact hintact => exact hintact.cleanUp htemp

theorem resolveConflict_ensures (remoteDir name : FilePath) (incoming : Fingerprint) (existing : Entry) :
    Ensures (UploadAnswers resolution) (fun result world' => ∃ policies : List ConflictPolicy,
        world' = { UploadWorld.start nodes source with events := policies.map .policy } ∧
          ∀ name' , result = .ok (some (name', .replace)) → .replace ∈ policies ∧ name' = name)
      (resolveConflict remoteDir name incoming existing).run (.start nodes source) := by
  refine ensures_seq.mpr ((idle_suggestName remoteDir name _ _).mono ?_)
  rintro suggested _ rfl
  cases suggested with
  | error => exact ⟨[], rfl, nofun⟩
  | ok suggested =>
    refine ensures_seq.mpr (ensures_question.mpr fun reply world' hreply => ?_)
    refine ensures_seq.mpr (ensures_liftExcept.mpr ?_)
    cases hreply with
    | noPolicy => exact ⟨[], rfl, nofun⟩
    | policyFor =>
      rename_i policy
      cases policy with
      | skip => exact ⟨[.skip], rfl, nofun⟩
      | keepBoth => exact ⟨[.keepBoth], rfl, nofun⟩
      | replace =>
        dsimp only
        by_cases hdirectory : existing.isDir
        · rw [if_pos hdirectory]
          exact ⟨[.replace], rfl, nofun⟩
        · rw [if_neg hdirectory]
          refine ⟨[.replace], rfl, fun name' h => ?_⟩
          cases h
          exact ⟨mem_singleton_self _, rfl⟩

theorem upload_ensures {request : TransferRequest}
    (hpath : uploadTarget request = .ok path) (hexists : nodes (resolution.resolve path) ≠ none) :
    Ensures (UploadAnswers resolution) (fun _ => UploadEnd nodes source (resolution.resolve path))
      (upload config request).run (.start nodes source) := by
  have hintact : Intact nodes (resolution.resolve path) (.start nodes source) := rfl
  unfold uploadTarget at hpath
  refine ensures_seq.mpr (ensures_liftExcept.mpr ?_)
  cases hdirectory : request.destinationDir.normalizeRemote with
  | error => exact .intact hintact
  | ok remoteDir =>
    rw [hdirectory] at hpath
    refine ensures_seq.mpr (ensures_liftExcept.mpr ?_)
    cases hname : request.targetName with
    | error => exact .intact hintact
    | ok name =>
      rw [hname] at hpath
      replace hpath : remoteDir.joinRemote name = .ok path := hpath
      refine ensures_seq.mpr (ensures_question.mpr fun metadata world' hreply => ?_)
      cases hreply
      refine ensures_seq.mpr (ensures_liftExcept.mpr ?_)
      cases metadata with
      | error => exact .intact hintact
      | ok metadata =>
        dsimp only
        by_cases hlarge : metadata.length > config.maxFileSize
        · rw [if_pos hlarge]
          exact .intact hintact
        · rw [if_neg hlarge]
          refine ensures_seq.mpr (ensures_question.mpr fun closed world' hreply => ?_)
          cases hreply
          cases closed with
          | true => exact .intact hintact
          | false =>
            refine ensures_seq.mpr ((idle_statEntry remoteDir _).mono ?_)
            rintro directory _ rfl
            cases directory with
            | error => exact .intact hintact
            | ok directory =>
              dsimp only
              by_cases hdir : directory.isDir = false
              · rw [if_pos hdir]
                exact .intact hintact
              · rw [if_neg hdir]
                refine ensures_seq.mpr (ensures_liftExcept.mpr ?_)
                rw [hpath]
                refine ensures_seq.mpr ((idle_remoteExisting path _).mono ?_)
                rintro existing _ rfl
                cases existing with
                | error => exact .intact hintact
                | ok existing =>
                  cases existing with
                  | none =>
                    refine transmit_ensures [] rfl hexists fun h => ?_
                    cases h
                  | some existing =>
                    refine ensures_seq.mpr ((resolveConflict_ensures remoteDir name _ existing).mono ?_)
                    rintro resolved _ ⟨policies, rfl, hreplace⟩
                    have hkept : Intact nodes (resolution.resolve path)
                        { UploadWorld.start nodes source with events := policies.map .policy } := rfl
                    cases resolved with
                    | error => exact .intact hkept
                    | ok resolved =>
                      cases resolved with
                      | none => exact .intact hkept
                      | some resolved =>
                        obtain ⟨name', commit⟩ := resolved
                        refine transmit_ensures policies rfl hexists ?_
                        rintro rfl
                        obtain ⟨hpolicy, rfl⟩ := hreplace name' rfl
                        exact ⟨hpolicy, path, hpath, rfl⟩

/-! ## Nothing is lost -/

/-- The server still holds the old content of the target or the complete new content, and a target that
existed is changed only by the policy to replace it. -/
structure DestroysNothing (nodes : ν → Option RemoteNode) (source : List UInt8) (target : ν)
    (world : UploadWorld ν) : Prop where
  kept : ∀ node, nodes target = some node → world.nodes target = some node ∨
    ∃ location, (location = target ∨ .opened location ∈ world.events) ∧
      world.nodes location = some (.file source)
  replaced : nodes target ≠ none → world.nodes target ≠ nodes target → .policy .replace ∈ world.events

/-- Whatever a server answers that executes what it acknowledges, no upload destroys data. -/
theorem upload_destroys_nothing {config : TransferConfig} {request : TransferRequest} {path : FilePath}
    {result : Except SftpError Outcome} (hpath : uploadTarget request = .ok path)
    (h : Ends (UploadAnswers resolution) (.start nodes source) (upload config request).run result world) :
    DestroysNothing nodes source (resolution.resolve path) world := by
  by_cases hexists : nodes (resolution.resolve path) = none
  · refine ⟨fun node hnode => ?_, absurd hexists⟩
    rw [hexists] at hnode
    cases hnode
  · cases (upload_ensures hpath hexists).ends h with
    | intact hintact => exact ⟨fun node hnode => .inl (hintact.trans hnode), fun _ => absurd hintact⟩
    | replaced hpolicy htarget => exact ⟨fun _ _ => .inr ⟨_, .inl rfl, htarget⟩, fun _ _ => hpolicy⟩

/-! ## A server with an atomic rename, and one without -/

/-- The part of a path after any leading `./`. -/
def dropHere : FilePath → FilePath
  | '.' :: '/' :: path => dropHere path
  | path => path

def lexical : Resolution FilePath := ⟨dropHere, fun path => by rw [dropHere]⟩

/-- A server that acknowledges an atomic rename, or knows none. The policy is to replace. -/
def answerReplacing (atomic : Bool) (world : UploadWorld FilePath) :
    (question : UploadQuestion) → Option (UploadReply question × UploadWorld FilePath)
  | .openSource _ => some (.ok ⟨world.source.length, none⟩, world)
  | .closed => some (false, world)
  | .lstat path =>
    match world.nodes (lexical.resolve path) with
    | none => some (.error (.status .noSuchFile "no such file"), world)
    | some .directory => some (.ok ⟨none, some 0o040755, none⟩, world)
    | some _ => some (.ok ⟨none, some 0o100644, none⟩, world)
  | .policyFor _ => some (.ok .replace, world.record (.policy .replace))
  | .random => some (⟨List.replicate 8 0, rfl⟩, world)
  | .openTemp path =>
    if world.nodes (lexical.resolve path) = none then
      some (.ok (), { (world.setNode (lexical.resolve path) (some (.file []))).record
        (.opened (lexical.resolve path)) with handle := some (lexical.resolve path) })
    else none
  | .readLocal space =>
    if space = 0 then none
    else some (.read ((world.source.drop world.position).take space) (length_take_le _ _),
      { world with position := world.position + ((world.source.drop world.position).take space).length })
  | .spawnWrite offset bytes =>
    some ((), { world with
      outstanding := world.outstanding ++ [(offset, bytes)]
      requested := world.requested ++ [(offset, bytes)] })
  | .joinWrite =>
    match world.outstanding, world.handle with
    | write :: outstanding, some location =>
      match world.nodes location with
      | some (.file content) =>
        some (.finished write.2.length (.ok ()), { world.setNode location (some (.file (patch content write))) with
          outstanding := outstanding
          acknowledged := world.acknowledged ++ [write] })
      | _ => none
    | _, _ => none
  | .abortWrites => some ((), { world with outstanding := [] })
  | .close => some (.ok (), { world with handle := none })
  | .posixRename source target =>
    if atomic then
      if world.nodes (lexical.resolve source) = none then none
      else some (.ok (.status .ok), world.move (lexical.resolve source) (lexical.resolve target))
    else some (.ok (.status .opUnsupported), world)
  | .remove path =>
    if world.nodes (lexical.resolve path) = none then none
    else some (.ok (), world.setNode (lexical.resolve path) none)
  | _ => none

theorem answerReplacing_answers (atomic : Bool) (world : UploadWorld FilePath) (question : UploadQuestion)
    (reply : UploadReply question) (world' : UploadWorld FilePath)
    (h : answerReplacing atomic world question = some (reply, world')) :
    UploadAnswers lexical world question reply world' := by
  cases question with
  | openSource | closed | policyFor | random | spawnWrite | abortWrites | close =>
    cases h
    constructor
  | lstat path =>
    unfold answerReplacing at h
    dsimp only at h
    cases hnode : world.nodes (lexical.resolve path) with
    | none =>
      rw [hnode] at h
      cases h
      exact .missing hnode
    | some node =>
      have hsome : world.nodes (lexical.resolve path) ≠ none := by rw [hnode]; exact Option.some_ne_none _
      rw [hnode] at h
      cases node <;> cases h <;> exact .lstat hsome
  | openTemp path =>
    unfold answerReplacing at h
    dsimp only at h
    by_cases hnode : world.nodes (lexical.resolve path) = none
    · rw [if_pos hnode] at h
      cases h
      exact .opened hnode
    · rw [if_neg hnode] at h
      cases h
  | readLocal space =>
    unfold answerReplacing at h
    dsimp only at h
    by_cases hspace : space = 0
    · rw [if_pos hspace] at h
      cases h
    · rw [if_neg hspace] at h
      cases h
      refine .read (List.take_prefix _ _) fun hempty => ?_
      have hlength := congrArg List.length hempty
      rw [length_take, length_drop, length_nil] at hlength
      omega
  | joinWrite =>
    unfold answerReplacing at h
    dsimp only at h
    split at h
    · next write outstanding location houtstanding hhandle =>
      split at h
      · next content hnode =>
        cases h
        exact .written hhandle hnode (houtstanding.trans (nil_append _).symm)
      · cases h
    · cases h
  | posixRename source target =>
    unfold answerReplacing at h
    dsimp only at h
    cases atomic with
    | false =>
      cases h
      exact .notPosixRenamed (by simp) (by simp)
    | true =>
      rw [if_pos rfl] at h
      by_cases hnode : world.nodes (lexical.resolve source) = none
      · rw [if_pos hnode] at h
        cases h
      · rw [if_neg hnode] at h
        cases h
        exact .posixRenamed hnode
  | remove path =>
    unfold answerReplacing at h
    dsimp only at h
    by_cases hnode : world.nodes (lexical.resolve path) = none
    · rw [if_pos hnode] at h
      cases h
    · rw [if_neg hnode] at h
      cases h
      exact .removed hnode
  | stat | readlink | setstat | rename | leftoverRemoteTemp => cases h

def letterRequest : TransferRequest := ⟨.upload, ['a'], ['/', 'd'], none⟩

def letterNodes : FilePath → Option RemoteNode
  | ['/', 'd'] => some .directory
  | ['/', 'd', '/', 'a'] => some (.file [1])
  | _ => none

def uploadByte (atomic : Bool) : Option (Except SftpError Outcome × UploadWorld FilePath) :=
  (upload (.new 1 1 4096 1 1000 1) letterRequest).run.run (answerReplacing atomic) (.start letterNodes [2])

theorem uploadByte_target (atomic : Bool) :
    (uploadByte atomic).map (fun upload => upload.2.nodes ['/', 'd', '/', 'a']) =
      some (some (.file (if atomic then [2] else [1]))) := by
  cases atomic <;> decide +kernel

/-- The new content replaces the old one, or the old one stays where there is no atomic rename. -/
theorem upload_destroys_nothing_of_letter :
    (∃ result world, uploadByte true = some (result, world) ∧
      world.nodes ['/', 'd', '/', 'a'] = some (.file [2]) ∧
      DestroysNothing letterNodes [2] ['/', 'd', '/', 'a'] world) ∧
    ∃ result world, uploadByte false = some (result, world) ∧
      world.nodes ['/', 'd', '/', 'a'] = some (.file [1]) ∧
      DestroysNothing letterNodes [2] ['/', 'd', '/', 'a'] world := by
  have hends (atomic : Bool) : ∃ result world, uploadByte atomic = some (result, world) ∧
      world.nodes ['/', 'd', '/', 'a'] = some (.file (if atomic then [2] else [1])) ∧
      DestroysNothing letterNodes [2] ['/', 'd', '/', 'a'] world := by
    obtain ⟨⟨result, world⟩, hrun, htarget⟩ := Option.map_eq_some_iff.mp (uploadByte_target atomic)
    have hpath : uploadTarget letterRequest = .ok ['/', 'd', '/', 'a'] := by decide +kernel
    refine ⟨result, world, hrun, htarget, ?_⟩
    exact upload_destroys_nothing hpath (ends_of_run (answerReplacing_answers atomic) hrun)
  exact ⟨hends true, hends false⟩

end FesTerm
