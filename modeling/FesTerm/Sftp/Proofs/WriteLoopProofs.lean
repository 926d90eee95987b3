import FesTerm.Sftp.Proofs.ReadLoopProofs
import FesTerm.Sftp.Server

/-!
# Proofs: a write loop sends the local file, each byte once

The requests follow one another and hold what was read of the local file. Whichever of them are
acknowledged first, the temporary file agrees with the local one wherever it was written.
-/

namespace FesTerm

open Dialogue List

variable {ν : Type} [DecidableEq ν] {resolution : Resolution ν}

/-- The requests follow one another from an offset on. -/
def Consecutive : Nat → List WriteRequest → Prop
  | _, [] => True
  | start, write :: writes => start = write.1 ∧ Consecutive (start + write.2.length) writes

/-- Every byte of a content is requested to be written once, at its own offset. -/
structure WrittenOnce (content : List UInt8) (writes : List WriteRequest) : Prop where
  consecutive : Consecutive 0 writes
  bytes : (writes.map Prod.snd).flatten = content

variable {start position : Nat} {writes : List WriteRequest} {write : WriteRequest} {content source : List UInt8}

theorem Consecutive.append
    (h : Consecutive start writes) (hwrite : start + (writes.map Prod.snd).flatten.length = write.1) :
    Consecutive start (writes ++ [write]) := by
  induction writes generalizing start with
  | nil => exact ⟨hwrite, trivial⟩
  | cons first writes ih =>
    refine ⟨h.1, ih h.2 ?_⟩
    rw [map_cons, flatten_cons, length_append] at hwrite
    omega

theorem Consecutive.holds
    (h : Consecutive start writes) (hbytes : (writes.map Prod.snd).flatten <+: content.drop start)
    (hwrite : write ∈ writes) : write.2 <+: content.drop write.1 := by
  induction writes generalizing start with
  | nil => cases hwrite
  | cons first writes ih =>
    rw [map_cons, flatten_cons] at hbytes
    rcases mem_cons.mp hwrite with rfl | hwrite
    · rw [← h.1]
      exact (prefix_append _ _).trans hbytes
    · refine ih h.2 ?_ hwrite
      obtain ⟨rest, hrest⟩ := hbytes
      rw [← drop_drop, ← hrest, append_assoc, drop_left]
      exact prefix_append _ _

theorem Consecutive.within (h : Consecutive start writes) (hwrite : write ∈ writes) :
    write.1 + write.2.length ≤ start + (writes.map Prod.snd).flatten.length := by
  induction writes generalizing start with
  | nil => cases hwrite
  | cons first writes ih =>
    rw [map_cons, flatten_cons, length_append]
    have hfirst := h.1
    rcases mem_cons.mp hwrite with rfl | hwrite
    · omega
    · have hrest := ih h.2 hwrite
      omega

theorem Consecutive.covers (h : Consecutive start writes)
    (hstart : start ≤ position) (hend : position < start + (writes.map Prod.snd).flatten.length) :
    ∃ write ∈ writes, write.1 ≤ position ∧ position < write.1 + write.2.length := by
  induction writes generalizing start with
  | nil =>
    rw [map_nil, flatten_nil, length_nil] at hend
    omega
  | cons first writes ih =>
    rw [map_cons, flatten_cons, length_append] at hend
    have hfirst := h.1
    by_cases hwithin : position < start + first.2.length
    · exact ⟨first, mem_cons_self, by omega, by omega⟩
    · obtain ⟨write, hmem, hwrite⟩ := ih h.2 (by omega) (by omega)
      exact ⟨write, mem_cons_of_mem _ hmem, hwrite⟩

/-- The content agrees with the source at every position of the write. -/
def Agrees (source content : List UInt8) (write : WriteRequest) : Prop :=
  ∀ position, write.1 ≤ position → position < write.1 + write.2.length →
    content[position]? = source[position]?

theorem patch_length (content : List UInt8) (write : WriteRequest) :
    (patch content write).length = max content.length (write.1 + write.2.length) := by
  simp only [patch, length_append, length_take, length_replicate, length_drop]
  omega

theorem patch_within (hstart : write.1 ≤ position) (hend : position < write.1 + write.2.length) :
    (patch content write)[position]? = write.2[position - write.1]? := by
  have hlength : (content.take write.1 ++ List.replicate (write.1 - content.length) 0).length = write.1 := by
    rw [length_append, length_take, length_replicate]
    omega
  rw [patch, append_assoc, getElem?_append_right (by omega), hlength,
    getElem?_append_left (by omega)]

theorem patch_outside (hposition : position < content.length)
    (houtside : position < write.1 ∨ write.1 + write.2.length ≤ position) :
    (patch content write)[position]? = content[position]? := by
  unfold patch
  rcases houtside with hbefore | hafter
  · rw [append_assoc, append_assoc, getElem?_append_left (by rw [length_take]; omega),
      getElem?_take_of_lt hbefore]
  · have hlength : (content.take write.1 ++ List.replicate (write.1 - content.length) 0 ++ write.2).length =
        write.1 + write.2.length := by
      simp only [length_append, length_take, length_replicate]
      omega
    rw [getElem?_append_right (by omega), hlength, getElem?_drop]
    congr 1
    omega

theorem getElem?_of_holds (hholds : write.2 <+: source.drop write.1) (hstart : write.1 ≤ position)
    (hend : position < write.1 + write.2.length) : write.2[position - write.1]? = source[position]? := by
  obtain ⟨rest, hrest⟩ := hholds
  have hbefore : (write.2 ++ rest)[position - write.1]? = write.2[position - write.1]? :=
    getElem?_append_left (by omega)
  rw [← hbefore, hrest, getElem?_drop]
  congr 1
  omega

theorem agrees_patch
    (hholds : write.2 <+: source.drop write.1) : Agrees source (patch content write) write := by
  intro position hstart hend
  rw [patch_within hstart hend]
  exact getElem?_of_holds hholds hstart hend

theorem Agrees.patched {other : WriteRequest} (h : Agrees source content other)
    (hholds : write.2 <+: source.drop write.1) (hother : other.1 + other.2.length ≤ source.length) :
    Agrees source (patch content write) other := by
  intro position hstart hend
  by_cases hwithin : write.1 ≤ position ∧ position < write.1 + write.2.length
  · exact agrees_patch hholds position hwithin.1 hwithin.2
  · have hcontent := h position hstart hend
    have hposition : position < content.length := by
      by_contra hpast
      rw [getElem?_eq_none (by omega), eq_comm, List.getElem?_eq_none_iff] at hcontent
      omega
    rw [patch_outside hposition (by omega)]
    exact hcontent

namespace UploadWorld

/-- Since an earlier state only the temporary file has changed. -/
structure Framed (before : UploadWorld ν) (temp : ν) (world : UploadWorld ν) : Prop where
  handle : world.handle = some temp
  source : world.source = before.source
  events : world.events = before.events
  others : ∀ location, location ≠ temp → world.nodes location = before.nodes location
  file : ∃ content, world.nodes temp = some (.file content)

/-- The local file was read up to `position` and its first `offset` bytes were requested to be written. -/
structure Sending (before : UploadWorld ν) (temp : ν) (position offset inFlight acknowledged : Nat)
    (world : UploadWorld ν) : Prop where
  handle : world.handle = some temp
  source : world.source = before.source
  events : world.events = before.events
  others : ∀ location, location ≠ temp → world.nodes location = before.nodes location
  position : world.position = position
  within : offset ≤ before.source.length
  inFlight : world.outstanding.length = inFlight
  requested : WrittenOnce (before.source.take offset) world.requested
  divided : world.requested.Perm (world.acknowledged ++ world.outstanding)
  acknowledged : (world.acknowledged.map fun write => write.2.length).sum = acknowledged
  file : ∃ content, world.nodes temp = some (.file content) ∧ content.length ≤ offset ∧
    ∀ write ∈ world.acknowledged, Agrees before.source content write

/-- What a part of the upload ensures when it succeeds; when it fails only the temporary file has changed. -/
def Goes {α : Type} (before : UploadWorld ν) (temp : ν) (holds : α → UploadWorld ν → Prop) :
    Except SftpError α → UploadWorld ν → Prop
  | .ok result, world => holds result world
  | .error _, world => Framed before temp world

section

variable {before world world' : UploadWorld ν} {temp : ν} {position offset inFlight acknowledged : Nat}

omit [DecidableEq ν] in
theorem Sending.framed (h : Sending before temp position offset inFlight acknowledged world) :
    Framed before temp world where
  handle := h.handle
  source := h.source
  events := h.events
  others := h.others
  file := by
    obtain ⟨content, hnode, _⟩ := h.file
    exact ⟨content, hnode⟩

omit [DecidableEq ν] in
theorem Sending.holds (h : Sending before temp position offset inFlight acknowledged world)
    {write : WriteRequest} (hwrite : write ∈ world.requested) :
    write.2 <+: before.source.drop write.1 ∧ write.1 + write.2.length ≤ offset := by
  have htaken : write.2 <+: (before.source.take offset).drop write.1 := by
    refine h.requested.consecutive.holds ?_ hwrite
    rw [h.requested.bytes, drop_zero]
  constructor
  · rw [drop_take] at htaken
    exact htaken.trans (List.take_prefix _ _)
  · have hend := h.requested.consecutive.within hwrite
    rw [h.requested.bytes, length_take] at hend
    omega

/-- A write task ends. -/
theorem Sending.reap (h : Sending before temp position offset (inFlight + 1) acknowledged world) :
    Ensures (UploadAnswers resolution)
      (Goes before temp (Sending before temp position offset inFlight)) (reapWrite acknowledged).run world := by
  refine ensures_seq.mpr (ensures_question.mpr fun reply world' hreply => ?_)
  cases hreply with
  | joinCancelled => exact h.framed
  | joinFailed | notWritten => exact ⟨h.handle, h.source, h.events, h.others, h.framed.file⟩
  | written hhandle hnode houtstanding =>
    rename_i location content write earlier later
    have hlocation : temp = location := Option.some.inj (h.handle.symm.trans hhandle)
    subst hlocation
    obtain ⟨content', hnode', hlength, hagrees⟩ := h.file
    have hcontent : content' = content := RemoteNode.file.inj (Option.some.inj (hnode'.symm.trans hnode))
    subst hcontent
    have hdivided : world.requested.Perm (world.acknowledged ++ [write] ++ (earlier ++ later)) := by
      refine h.divided.trans ?_
      rw [houtstanding, append_assoc, singleton_append]
      exact List.Perm.append_left _ perm_middle
    have hwrite : write ∈ world.requested := by
      refine hdivided.mem_iff.mpr (mem_append_left _ (mem_append_right _ ?_))
      exact mem_singleton_self write
    obtain ⟨hholds, hend⟩ := h.holds hwrite
    refine
      { handle := h.handle
        source := h.source
        events := h.events
        others := ?_
        position := h.position
        within := h.within
        inFlight := ?_
        requested := h.requested
        divided := hdivided
        acknowledged := ?_
        file := ⟨patch content' write, Function.update_self _ _ _, ?_, ?_⟩ }
    · intro location hlocation
      exact (Function.update_of_ne hlocation _ _).trans (h.others location hlocation)
    · have hcount := h.inFlight
      rw [houtstanding, length_append, length_cons] at hcount
      rw [length_append]
      omega
    · rw [map_append, sum_append, h.acknowledged]
      simp only [map_cons, map_nil, sum_cons, sum_nil, Nat.add_zero]
    · rw [patch_length]
      omega
    · intro other hother
      rcases mem_append.mp hother with hother | hother
      · refine (hagrees other hother).patched hholds ?_
        have hbefore := (h.holds (h.divided.mem_iff.mpr (mem_append_left _ hother))).2
        exact hbefore.trans h.within
      · rw [mem_singleton.mp hother]
        exact agrees_patch hholds

theorem Sending.reapAll (count : Nat)
    (h : Sending before temp position offset (inFlight + count) acknowledged world) :
    Ensures (UploadAnswers resolution)
      (Goes before temp (Sending before temp position offset inFlight)) (reapWrites count acknowledged).run world := by
  induction count generalizing world acknowledged with
  | zero => exact h
  | succ count ih =>
    rw [← Nat.add_assoc] at h
    exact h.reap.seq (fun acknowledged world' hrest => ih hrest) fun _ _ hframed => hframed

/-- Reading goes on from where the buffer ends. -/
theorem Sending.fill {world : UploadWorld ν} {chunk : Nat} {buffer : List UInt8} (hchunk : 0 < chunk)
    (h : Sending before temp (offset + buffer.length) offset inFlight acknowledged world)
    (hbuffer : buffer <+: before.source.drop offset) :
    Ensures (UploadAnswers resolution)
      (Goes before temp fun buffer' world' =>
        Sending before temp (offset + buffer'.length) offset inFlight acknowledged world' ∧
          buffer' <+: before.source.drop offset ∧ (buffer' = [] → before.source.length ≤ offset))
      (fillBuffer chunk buffer).run world := by
  rw [fillBuffer]
  by_cases hroom : buffer.length < chunk
  · rw [dif_pos hroom]
    refine ensures_seq.mpr (ensures_question.mpr fun reply world' hreply => ?_)
    cases hreply with
    | readCancelled | readFailed => exact h.framed
    | read hbytes hend =>
      rename_i bytes _
      rw [h.position, h.source] at hbytes hend
      by_cases hempty : bytes = []
      · subst hempty
        refine ⟨{ h with position := h.position }, hbuffer, ?_⟩
        rintro rfl
        exact hend rfl
      · dsimp only
        rw [dif_neg hempty]
        have hposition : offset + (buffer ++ bytes).length = world.position + bytes.length := by
          rw [length_append, h.position, Nat.add_assoc]
        refine Sending.fill hchunk { h with position := hposition.symm } ?_
        obtain ⟨rest, hrest⟩ := hbuffer
        rw [← drop_drop, ← hrest, drop_left] at hbytes
        rw [← hrest]
        exact (prefix_append_right_inj buffer).mpr hbytes
  · rw [dif_neg hroom]
    refine ⟨h, hbuffer, ?_⟩
    rintro rfl
    exact absurd hchunk hroom
termination_by chunk - buffer.length
decreasing_by
  have := length_pos_iff.mpr hempty
  rw [length_append]
  omega

omit [DecidableEq ν] in
theorem Sending.spawn {buffer : List UInt8}
    (h : Sending before temp (offset + buffer.length) offset inFlight acknowledged world)
    (hbuffer : buffer <+: before.source.drop offset) :
    Sending before temp (offset + buffer.length) (offset + buffer.length) (inFlight + 1) acknowledged
      { world with
        outstanding := world.outstanding ++ [(offset, buffer)]
        requested := world.requested ++ [(offset, buffer)] } := by
  have hlength := hbuffer.length_le
  rw [length_drop] at hlength
  have hwithin := h.within
  refine { h with inFlight := ?_, within := by omega, requested := ⟨?_, ?_⟩, divided := ?_, file := ?_ }
  · rw [length_append, h.inFlight, length_singleton]
  · refine h.requested.consecutive.append ?_
    rw [h.requested.bytes, length_take, Nat.zero_add]
    exact Nat.min_eq_left hwithin
  · rw [map_append, flatten_append, h.requested.bytes, take_add]
    congr 1
    rw [← prefix_iff_eq_take.mp hbuffer]
    exact append_nil buffer
  · rw [← append_assoc]
    exact h.divided.append_right _
  · obtain ⟨content, hnode, hcontent, hagrees⟩ := h.file
    exact ⟨content, hnode, by omega, hagrees⟩

theorem Sending.chunks {world : UploadWorld ν} (config : TransferConfig) {total offset inFlight acknowledged : Nat}
    (h : Sending before temp offset offset inFlight acknowledged world) :
    Ensures (UploadAnswers resolution)
      (Goes before temp fun result world' =>
        Sending before temp result.1 result.1 0 result.2 world' ∧ before.source.length ≤ result.1)
      (writeChunks config total offset inFlight acknowledged).run world := by
  have hchunk : 0 < config.chunkSize := by have := config.chunked.1; omega
  rw [writeChunks]
  have hempty : Sending before temp (offset + ([] : List UInt8).length) offset inFlight acknowledged world := h
  refine (hempty.fill hchunk nil_prefix).seq ?_ fun _ _ hframed => hframed
  rintro buffer world' ⟨hfilled, hbuffer, hend⟩
  by_cases hempty : buffer = []
  · subst hempty
    rw [← Nat.zero_add inFlight] at hfilled
    refine (hfilled.reapAll inFlight).seq ?_ fun _ _ hframed => hframed
    exact fun acknowledged world' hreaped => ⟨hreaped, hend rfl⟩
  · rw [dif_neg hempty]
    by_cases hgrew : offset + buffer.length > total
    · rw [dif_pos hgrew]
      exact hfilled.framed
    · rw [dif_neg hgrew]
      have hcount : inFlight = inFlight - (inFlight + 1 - config.window) + (inFlight + 1 - config.window) := by
        have hwindow := config.windowed.1
        omega
      rw [hcount] at hfilled
      refine (hfilled.reapAll _).seq ?_ fun _ _ hframed => hframed
      intro acknowledged world' hreaped
      refine ensures_seq.mpr (ensures_question.mpr fun reply world'' hreply => ?_)
      cases hreply
      exact Sending.chunks config (hreaped.spawn hbuffer)
termination_by total - offset
decreasing_by
  have := length_pos_iff.mpr hempty
  omega

/-- The whole local file was written, each byte once, and every request was acknowledged. -/
structure Sent (before : UploadWorld ν) (temp : ν) (total : Nat) (world : UploadWorld ν) : Prop where
  handle : world.handle = some temp
  source : world.source = before.source
  events : world.events = before.events
  others : ∀ location, location ≠ temp → world.nodes location = before.nodes location
  total : before.source.length = total
  requested : WrittenOnce before.source world.requested
  acknowledged : world.requested.Perm world.acknowledged
  file : world.nodes temp = some (.file before.source)

omit [DecidableEq ν] in
theorem Sending.sent (h : Sending before temp offset offset 0 acknowledged world)
    (hend : before.source.length ≤ offset) :
    Sent before temp offset { world with outstanding := [] } := by
  have htotal : before.source.length = offset := Nat.le_antisymm hend h.within
  have hrequested := h.requested
  rw [← htotal, take_length] at hrequested
  have hdivided := h.divided
  rw [length_eq_zero_iff.mp h.inFlight, append_nil] at hdivided
  refine
    { handle := h.handle
      source := h.source
      events := h.events
      others := h.others
      total := htotal
      requested := hrequested
      acknowledged := hdivided
      file := ?_ }
  obtain ⟨content, hnode, hlength, hagrees⟩ := h.file
  refine hnode.trans (congrArg (fun content => some (RemoteNode.file content)) ?_)
  refine ext_getElem? fun position => ?_
  by_cases hposition : position < before.source.length
  · obtain ⟨write, hwrite, hstart, hstop⟩ :=
      hrequested.consecutive.covers (Nat.zero_le position) (by rw [hrequested.bytes]; omega)
    exact hagrees write (hdivided.mem_iff.mp hwrite) position hstart hstop
  · rw [getElem?_eq_none (by omega), getElem?_eq_none (by omega)]

/-- A world in which an upload begins to write to its temporary file. -/
structure Begins (temp : ν) (world : UploadWorld ν) : Prop where
  handle : world.handle = some temp
  file : world.nodes temp = some (.file [])
  position : world.position = 0
  outstanding : world.outstanding = []
  requested : world.requested = []
  acknowledged : world.acknowledged = []

omit [DecidableEq ν] in
theorem Begins.sending (h : Begins temp world) : Sending world temp 0 0 0 0 world where
  handle := h.handle
  source := rfl
  events := rfl
  others := fun _ _ => rfl
  position := h.position
  within := Nat.zero_le _
  inFlight := by rw [h.outstanding]; rfl
  requested := by
    rw [h.requested]
    exact ⟨trivial, rfl⟩
  divided := by rw [h.requested, h.acknowledged, h.outstanding]; exact .nil
  acknowledged := by rw [h.acknowledged]; rfl
  file := ⟨[], h.file, le_rfl, fun write hwrite => by rw [h.acknowledged] at hwrite; cases hwrite⟩

theorem Begins.writeLoop (config : TransferConfig) {total : Nat} (h : Begins temp world) :
    Ensures (UploadAnswers resolution) (Goes world temp fun _ world' => Sent world temp total world')
      (writeLoop config total).run world := by
  refine ensures_seq.mpr (ensures_attempt.mpr ((h.sending.chunks config).mono ?_))
  intro result world' hresult
  refine ensures_seq.mpr (ensures_question.mpr fun reply world'' hreply => ?_)
  cases hreply
  cases result with
  | error error => exact ⟨hresult.handle, hresult.source, hresult.events, hresult.others, hresult.file⟩
  | ok result =>
    obtain ⟨hsending, hend⟩ := hresult
    refine ensures_seq.mpr (ensures_liftExcept.mpr ?_)
    by_cases htotal : result.1 = total
    · dsimp only
      rw [if_neg (not_not.mpr htotal), ← htotal]
      exact hsending.sent hend
    · dsimp only
      rw [if_pos htotal]
      have hframed := hsending.framed
      exact ⟨hframed.handle, hframed.source, hframed.events, hframed.others, hframed.file⟩

end

end UploadWorld

open UploadWorld

/-- Downloads write the remote file, byte for byte, and uploads the local one. -/
structure ByteExact (config : TransferConfig) : Prop where
  readEnds : ∀ (content : List UInt8) (total : Option Nat),
    Acc (flip (Step (ReadAnswers content))) ([], (readLoop config total).run) ∧
      ∃ result file, Ends (ReadAnswers content) [] (readLoop config total).run result file
  read : ∀ (content : List UInt8) (total : Option Nat) (result : Except SftpError Unit) (file : List UInt8),
    Ends (ReadAnswers content) [] (readLoop config total).run result file →
      ReadExactly content total result file
  written : ∀ {ν : Type} [DecidableEq ν] (resolution : Resolution ν) (temp : ν) (total : Nat)
    (world world' : UploadWorld ν), Begins temp world →
      Ends (UploadAnswers resolution) world (writeLoop config total).run (.ok ()) world' →
        Sent world temp total world'

/-- Both loops are exact, whatever the server answers. -/
theorem transfers_are_byte_exact (config : TransferConfig) : ByteExact config where
  readEnds := fun content _ => ⟨step_wellFounded.apply _, exists_ends (readAnswers_total content) _ _⟩
  read := fun content total _ _ h => (readLoop_ensures content config total).ends h
  written := fun _ _ _ _ _ hbegins h => (hbegins.writeLoop config).ends h

end FesTerm
