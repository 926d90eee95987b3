import FesTerm.Lib.Runs
import FesTerm.Sessiond.OutboundFrames

/-!
# The frames arrive in order

Whatever the transport does, the bytes that it has accepted and the bytes that are still to be written
are together those of the frames that were queued: this is what a write, a call of `pump` and a whole
run keep. A frame is dropped from the queue with its last byte, so the place in the first frame that is
left says which ones are complete.
-/

namespace FesTerm

open List

/-- What is known of a `Write`: it accepts a first part of the bytes, or none and fails. -/
structure Transport.Lawful {W : Type} (transport : Transport W) (accepted : W → List UInt8) : Prop where
  write : ∀ {stream bytes count stream'}, transport.write stream bytes = (.ok count, stream') →
    count ≤ bytes.length ∧ accepted stream' = accepted stream ++ bytes.take count
  writeFails : ∀ {stream bytes error stream'}, transport.write stream bytes = (.error error, stream') →
    accepted stream' = accepted stream
  flush : ∀ stream, accepted (transport.flush stream).2 = accepted stream

namespace OutboundFrames

variable {W : Type} {transport : Transport W} {accepted : W → List UInt8}

/-! ## A frame -/

/-- How a frame stands after some rounds. -/
structure Written (accepted : W → List UInt8) (frame frame' : QueuedFrame) (stream stream' : W) :
    Prop where
  same : frame' = { frame with written := frame'.written }
  le : frame'.written ≤ frame.bytes.length
  bytes : accepted stream' ++ frame'.remaining = accepted stream ++ frame.remaining

theorem writeFrame_spec (hlawful : transport.Lawful accepted) {rounds budget budget' : Nat}
    {frame frame' : QueuedFrame} {stream stream' : W} {ending : FrameEnd}
    (hle : frame.written ≤ frame.bytes.length)
    (hrounds : frame.bytes.length - frame.written ≤ rounds)
    (h : writeFrame transport rounds frame budget stream = (ending, frame', budget', stream')) :
    Written accepted frame frame' stream stream' ∧
      (ending = .complete ↔ frame'.written = frame.bytes.length) := by
  induction rounds generalizing frame budget stream with
  | zero =>
    cases h
    exact ⟨⟨rfl, hle, rfl⟩, by simp; omega⟩
  | succ rounds ih =>
    unfold writeFrame at h
    split at h
    · next hlt =>
      split at h
      · cases h
        exact ⟨⟨rfl, hle, rfl⟩, by simp; omega⟩
      · simp only at h
        have hremaining : frame.remaining.length = frame.bytes.length - frame.written := by
          rw [OutboundFrame.remaining, length_drop]
        split at h
        · next stream₁ hwrite =>
          cases h
          have hbytes := (hlawful.write hwrite).2
          rw [take_zero, append_nil] at hbytes
          exact ⟨⟨rfl, hle, by rw [hbytes]⟩, by simp; omega⟩
        · next count stream₁ hpos hwrite =>
          obtain ⟨hcount, hbytes⟩ := hlawful.write hwrite
          rw [length_take, hremaining] at hcount
          rw [take_take, Nat.min_eq_left (by omega)] at hbytes
          have hcount' : 0 < count := Nat.pos_of_ne_zero hpos
          obtain ⟨hwritten, hending⟩ := ih (by simp only; omega) (by simp only; omega) h
          refine ⟨⟨hwritten.same, hwritten.le, ?_⟩, hending⟩
          rw [hwritten.bytes, hbytes, append_assoc]
          congr 1
          have hsplit := take_append_drop count frame.remaining
          rw [OutboundFrame.remaining, drop_drop] at hsplit
          exact hsplit
        · next error stream₁ hwrite =>
          have hbytes := hlawful.writeFails hwrite
          split at h
          · cases h
            exact ⟨⟨rfl, hle, by rw [hbytes]⟩, by simp; omega⟩
          · cases h
            exact ⟨⟨rfl, hle, by rw [hbytes]⟩, by simp; omega⟩
    · cases h
      exact ⟨⟨rfl, hle, rfl⟩, by simp; omega⟩

/-! ## A call of `pump` -/

def unsent (frames : List QueuedFrame) : List UInt8 := (frames.map fun frame => frame.remaining).flatten

/-- The first frame is written up to here, the others not at all. -/
def resumed (written : Nat) : List QueuedFrame → List QueuedFrame
  | [] => []
  | frame :: frames => { frame with written := written } :: frames

def countAll (metrics : OutboundMetrics) (done : List QueuedFrame) : OutboundMetrics :=
  done.foldl count metrics

def reports (legacyResizeAck : Bool) (done : List QueuedFrame) : List ServerFrameEvent :=
  done.flatMap (report legacyResizeAck [])

/-- What a call of `pump` does with the queue: the first frames are complete, the next one is written
up to somewhere before its end, unless an error has ended the call. -/
structure Pumps (accepted : W → List UInt8) (legacyResizeAck : Bool) (frames : List QueuedFrame)
    (metrics : OutboundMetrics) (events : List ServerFrameEvent) (stream : W) (pumped : Pumped W)
    (done rest : List QueuedFrame) (written : Nat) : Prop where
  split : frames = done ++ rest
  left : pumped.frames = resumed written rest
  le : ∀ frame ∈ rest.head?, written ≤ frame.bytes.length
  lt : pumped.result = .ok () → ∀ frame ∈ rest.head?, written < frame.bytes.length
  bytes : accepted pumped.stream ++ unsent pumped.frames = accepted stream ++ unsent frames
  metrics : pumped.metrics = countAll metrics done
  events : pumped.events = events ++ reports legacyResizeAck done

theorem report_eq (legacyResizeAck : Bool) (events : List ServerFrameEvent) (frame : QueuedFrame) :
    report legacyResizeAck events frame = events ++ report legacyResizeAck [] frame := by
  unfold report
  cases frame.resizeApplied with
  | none => simp
  | some size => cases legacyResizeAck <;> simp

theorem count_written (metrics : OutboundMetrics) (frame : QueuedFrame) (written : Nat) :
    count metrics { frame with written := written } = count metrics frame := rfl

theorem pumps_stopped {legacyResizeAck : Bool} {frame frame' : QueuedFrame}
    {frames : List QueuedFrame} {metrics : OutboundMetrics} {events : List ServerFrameEvent}
    {stream stream' : W} {result : Except IoError Unit}
    (hwritten : Written accepted frame frame' stream stream')
    (hlt : result = .ok () → frame'.written < frame.bytes.length) :
    Pumps accepted legacyResizeAck (frame :: frames) metrics events stream
      ⟨result, frame' :: frames, metrics, events, stream'⟩ [] (frame :: frames) frame'.written := by
  refine ⟨rfl, ?_, ?_, ?_, ?_, rfl, (append_nil _).symm⟩
  · show frame' :: frames = _
    rw [resumed, ← hwritten.same]
  · intro first hfirst
    cases hfirst
    exact hwritten.le
  · intro hresult first hfirst
    cases hfirst
    exact hlt hresult
  · simp only [unsent, map_cons, flatten_cons]
    rw [← append_assoc, ← append_assoc, hwritten.bytes]

theorem Pumps.cons {legacyResizeAck : Bool} {frame frame' : QueuedFrame} {frames : List QueuedFrame}
    {metrics : OutboundMetrics} {events : List ServerFrameEvent} {stream between : W}
    {pumped : Pumped W} {done rest : List QueuedFrame} {written : Nat}
    (hwritten : Written accepted frame frame' stream between)
    (hcomplete : frame'.written = frame.bytes.length)
    (h : Pumps accepted legacyResizeAck frames (count metrics frame')
      (report legacyResizeAck events frame') between pumped done rest written) :
    Pumps accepted legacyResizeAck (frame :: frames) metrics events stream pumped (frame :: done) rest
      written := by
  have hsame := hwritten.same
  refine ⟨by rw [h.split, cons_append], h.left, h.le, h.lt, ?_, ?_, ?_⟩
  · have hbytes := hwritten.bytes
    have hnothing : frame'.remaining = [] := by
      rw [OutboundFrame.remaining, hcomplete, hsame]
      exact drop_length
    rw [hnothing, append_nil] at hbytes
    rw [h.bytes, hbytes, append_assoc]
    rfl
  · rw [h.metrics, hsame, count_written]
    rfl
  · rw [h.events, report_eq, hsame, append_assoc]
    rfl

theorem pumpFrames_spec (hlawful : transport.Lawful accepted) (legacyResizeAck : Bool)
    {frames : List QueuedFrame} {budget : Nat} {metrics : OutboundMetrics}
    {events : List ServerFrameEvent} {stream : W}
    (hshort : ∀ frame ∈ frames, frame.written < frame.bytes.length) :
    ∃ done rest written, Pumps accepted legacyResizeAck frames metrics events stream
      (pumpFrames transport legacyResizeAck frames budget metrics events stream) done rest written := by
  induction frames generalizing budget metrics events stream with
  | nil =>
    refine ⟨[], [], 0, rfl, rfl, ?_, ?_, rfl, rfl, (append_nil _).symm⟩
    · exact nofun
    · exact nofun
  | cons frame frames ih =>
    have hlt := hshort frame mem_cons_self
    rw [pumpFrames]
    split
    · exact ⟨[], frame :: frames, frame.written, pumps_stopped ⟨rfl, Nat.le_of_lt hlt, rfl⟩ fun _ => hlt⟩
    · split
      · next frame' _ stream' hwrite =>
        obtain ⟨hwritten, hending⟩ :=
          writeFrame_spec hlawful (Nat.le_of_lt hlt) le_rfl hwrite
        refine ⟨[], frame :: frames, frame'.written, pumps_stopped hwritten fun _ => ?_⟩
        have hne : frame'.written ≠ frame.bytes.length := fun heq => nomatch hending.mpr heq
        have hle := hwritten.le
        omega
      · next error frame' _ stream' hwrite =>
        obtain ⟨hwritten, -⟩ := writeFrame_spec hlawful (Nat.le_of_lt hlt) le_rfl hwrite
        exact ⟨[], frame :: frames, frame'.written, pumps_stopped hwritten nofun⟩
      · next frame' budget' stream' hwrite =>
        obtain ⟨hwritten, hending⟩ :=
          writeFrame_spec hlawful (Nat.le_of_lt hlt) le_rfl hwrite
        have hcomplete := hending.mp rfl
        have hflush := hlawful.flush stream'
        cases hflushed : transport.flush stream' with
        | mk result between =>
          rw [hflushed] at hflush
          have hwritten' : Written accepted frame frame' stream between :=
            ⟨hwritten.same, hwritten.le, by rw [hflush, hwritten.bytes]⟩
          obtain ⟨done, rest, written, hpumps⟩ :=
            @ih budget' (count metrics frame') (report legacyResizeAck events frame') between
              fun other hother => hshort other (mem_cons_of_mem _ hother)
          have hgoes := hpumps.cons hwritten' hcomplete
          cases result with
          | ok flushed => exact ⟨_, _, _, hgoes⟩
          | error error =>
            simp only
            split
            · exact ⟨_, _, _, hgoes⟩
            · exact ⟨[], frame :: frames, frame'.written, pumps_stopped hwritten' nofun⟩

end OutboundFrames

/-! ## A run -/

namespace OutboundRequest

/-- The frame of a request when it is queued. -/
def frame : OutboundRequest → QueuedFrame
  | input bytes => ⟨⟨encodeFrame frameInput bytes, 0, none⟩, bytes.length⟩
  | resize size => ⟨⟨encodeFrame frameResize (encodeResize size), 0, some size⟩, 0⟩
  | recoverySync payload => ⟨⟨encodeFrame frameRecoverySync payload, 0, none⟩, 0⟩
  | recoveryAdopted => ⟨⟨encodeFrame frameRecoveryAdopted [], 0, none⟩, 0⟩

/-- How many bytes of input a request carries. -/
def inputLength : OutboundRequest → Nat
  | input bytes => bytes.length
  | _ => 0

/-- The size that a request asks for. -/
def size? : OutboundRequest → Option TerminalSize
  | resize size => some size
  | _ => none

theorem frame_written (request : OutboundRequest) : request.frame.written = 0 := by
  cases request <;> rfl

theorem frame_pos (request : OutboundRequest) : 0 < request.frame.bytes.length := by
  cases request <;> simp [frame, encodeFrame, encodeFrameWith]

end OutboundRequest

/-- The frames of the requests, one after the other. -/
def requestBytes (requests : List OutboundRequest) : List UInt8 :=
  (requests.map fun request => request.frame.bytes).flatten

namespace OutboundFrames

theorem push_frames (outbound : OutboundFrames) (request : OutboundRequest) :
    (outbound.push request).frames = outbound.frames ++ [request.frame] := by
  cases request <;> rfl

theorem push_legacyResizeAck (outbound : OutboundFrames) (request : OutboundRequest) :
    (outbound.push request).legacyResizeAck = outbound.legacyResizeAck := by
  cases request <;> rfl

theorem resumed_frames (written : Nat) (request : OutboundRequest) (requests : List OutboundRequest) :
    resumed written ((request :: requests).map OutboundRequest.frame) =
      { request.frame with written := written } :: requests.map OutboundRequest.frame := rfl

theorem unsent_resumed {written : Nat} {requests : List OutboundRequest}
    (hle : ∀ request ∈ requests.head?, written ≤ request.frame.bytes.length) :
    unsent (resumed written (requests.map OutboundRequest.frame)) =
      (requestBytes requests).drop written := by
  cases requests with
  | nil => simp [unsent, resumed, requestBytes]
  | cons request requests =>
    have hlength := hle request rfl
    have htail : (requests.map OutboundRequest.frame).map (fun frame => frame.remaining) =
        requests.map fun request => request.frame.bytes := by
      rw [List.map_map]
      refine map_congr_left fun other _ => ?_
      show List.drop other.frame.written other.frame.bytes = other.frame.bytes
      rw [other.frame_written, drop_zero]
    rw [resumed_frames, unsent, map_cons, htail, requestBytes, map_cons, flatten_cons,
      flatten_cons, drop_append_of_le_length hlength]
    rfl

theorem count_frame (metrics : OutboundMetrics) (request : OutboundRequest) :
    count metrics request.frame = ⟨metrics.inputBytes + request.inputLength,
      metrics.resizeCount + request.size?.toList.length⟩ := by
  cases request with
  | input bytes =>
    by_cases hempty : 0 < bytes.length
    · simp [count, OutboundRequest.frame, OutboundRequest.inputLength, OutboundRequest.size?, hempty]
    · have hzero : bytes.length = 0 := by omega
      simp [count, OutboundRequest.frame, OutboundRequest.inputLength, OutboundRequest.size?, hzero]
  | resize size | recoverySync payload | recoveryAdopted => rfl

theorem countAll_frames (metrics : OutboundMetrics) (requests : List OutboundRequest) :
    countAll metrics (requests.map OutboundRequest.frame) =
      ⟨metrics.inputBytes + (requests.map OutboundRequest.inputLength).sum,
        metrics.resizeCount + (requests.filterMap OutboundRequest.size?).length⟩ := by
  induction requests generalizing metrics with
  | nil => rfl
  | cons request requests ih =>
    have hrest := ih (count metrics request.frame)
    rw [countAll] at hrest
    rw [map_cons, countAll, foldl_cons, hrest, count_frame, filterMap_cons]
    cases request.size? with
    | none => simp [Nat.add_assoc]
    | some size =>
      simp [Nat.add_assoc]
      omega

theorem reports_frames (legacyResizeAck : Bool) (requests : List OutboundRequest) :
    reports legacyResizeAck (requests.map OutboundRequest.frame) =
      if legacyResizeAck then (requests.filterMap OutboundRequest.size?).map .resizeApplied else [] := by
  induction requests with
  | nil => cases legacyResizeAck <;> rfl
  | cons request requests ih =>
    have hreport : report legacyResizeAck [] request.frame =
        if legacyResizeAck then request.size?.toList.map .resizeApplied else [] := by
      cases request <;> cases legacyResizeAck <;> rfl
    rw [reports] at ih
    rw [map_cons, reports, flatMap_cons, ih, hreport, filterMap_cons]
    cases request.size? <;> cases legacyResizeAck <;> rfl

/-- The frames that a call completed, and those that are left, as requests. -/
theorem exists_requests {written : Nat} {requests : List OutboundRequest} {done rest : List QueuedFrame}
    (h : resumed written (requests.map OutboundRequest.frame) = done ++ rest) :
    ∃ completed left, requests = completed ++ left ∧
      (∀ metrics, countAll metrics done = countAll metrics (completed.map OutboundRequest.frame)) ∧
      (∀ legacyResizeAck, reports legacyResizeAck done =
        reports legacyResizeAck (completed.map OutboundRequest.frame)) ∧
      (∀ place, resumed place rest = resumed place (left.map OutboundRequest.frame)) ∧
      ∀ request ∈ left.head?, ∃ frame ∈ rest.head?, frame.bytes = request.frame.bytes := by
  cases requests with
  | nil =>
    obtain ⟨rfl, rfl⟩ := nil_eq_append_iff.mp h
    exact ⟨[], [], rfl, fun _ => rfl, fun _ => rfl, fun _ => rfl, nofun⟩
  | cons request requests =>
    rw [resumed_frames] at h
    cases done with
    | nil =>
      rw [nil_append] at h
      subst h
      refine ⟨[], request :: requests, rfl, fun _ => rfl, fun _ => rfl, fun _ => rfl, ?_⟩
      intro first hfirst
      cases hfirst
      exact ⟨_, rfl, rfl⟩
    | cons frame done =>
      rw [cons_append] at h
      obtain ⟨rfl, htail⟩ := List.cons.inj h
      obtain ⟨completed, left, rfl, rfl, rfl⟩ := map_eq_append_iff.mp htail
      refine ⟨request :: completed, left, rfl, fun _ => rfl, fun _ => rfl, fun _ => rfl, ?_⟩
      intro first hfirst
      refine ⟨first.frame, ?_, rfl⟩
      rw [head?_map, hfirst]
      rfl

end OutboundFrames

namespace ClientWrites

variable {W : Type} {transport : Transport W} {accepted : W → List UInt8}

open OutboundFrames

/-- What happens elsewhere writes nothing to the stream. -/
def Undisturbed (accepted : W → List UInt8) (writes : ClientWrites W) : WriteStep W → Prop
  | .elsewhere _ stream => accepted stream = accepted writes.stream
  | _ => True

/-- Where the writes stand: these requests are complete, of the first of the rest this much is
written, and the metrics and the events are those of the complete ones. -/
structure Resumes (accepted : W → List UInt8) (origin : List UInt8) (legacyResizeAck : Bool)
    (writes : ClientWrites W) (completed rest : List OutboundRequest) (written : Nat) : Prop where
  queued : writes.queued = completed ++ rest
  frames : writes.outbound.frames = resumed written (rest.map OutboundRequest.frame)
  le : ∀ request ∈ rest.head?, written ≤ request.frame.bytes.length
  /-- A frame does not stay when all of it is accepted, unless an error has ended the worker. -/
  lt : writes.failed = false → ∀ request ∈ rest.head?, written < request.frame.bytes.length
  accepted : accepted writes.stream =
    origin ++ requestBytes completed ++ (requestBytes rest).take written
  inputBytes : writes.metrics.inputBytes = (completed.map OutboundRequest.inputLength).sum
  resizeCount : writes.metrics.resizeCount = (completed.filterMap OutboundRequest.size?).length
  reported : writes.reported =
    if legacyResizeAck then (completed.filterMap OutboundRequest.size?).map .resizeApplied else []
  legacy : writes.outbound.legacyResizeAck = legacyResizeAck

theorem requestBytes_append (first second : List OutboundRequest) :
    requestBytes (first ++ second) = requestBytes first ++ requestBytes second := by
  simp [requestBytes]

variable {writes writes' : ClientWrites W} {origin : List UInt8} {legacyResizeAck : Bool}
  {completed rest : List OutboundRequest} {written : Nat}

theorem Resumes.queue (h : Resumes accepted origin legacyResizeAck writes completed rest written)
    (request : OutboundRequest) :
    ∃ place, Resumes accepted origin legacyResizeAck { writes with
      outbound := writes.outbound.push request
      queued := writes.queued ++ [request] } completed (rest ++ [request]) place := by
  have hframes := push_frames writes.outbound request
  have hlegacy := push_legacyResizeAck writes.outbound request
  have hqueued : writes.queued ++ [request] = completed ++ (rest ++ [request]) := by
    rw [h.queued, append_assoc]
  cases rest with
  | nil =>
    refine ⟨0, hqueued, ?_, ?_, ?_, ?_, h.inputBytes, h.resizeCount, h.reported, hlegacy.trans h.legacy⟩
    · rw [hframes, h.frames, nil_append, resumed_frames, ← request.frame_written]
      rfl
    · intro first _
      exact Nat.zero_le _
    · intro _ first _
      exact first.frame_pos
    · rw [take_zero, append_nil]
      have hnil : requestBytes [] = [] := rfl
      have haccepted := h.accepted
      rwa [hnil, take_nil, append_nil] at haccepted
  | cons first rest =>
    have hhead := h.le first rfl
    refine ⟨written, hqueued, ?_, ?_, ?_, ?_, h.inputBytes, h.resizeCount, h.reported, hlegacy.trans h.legacy⟩
    · rw [hframes, h.frames, cons_append, resumed_frames, resumed_frames, map_append,
        cons_append]
      rfl
    · intro other hother
      cases hother
      exact hhead
    · intro hrunning other hother
      cases hother
      exact h.lt hrunning _ rfl
    · have hlong : written ≤ (requestBytes (first :: rest)).length := by
        rw [requestBytes, map_cons, flatten_cons, length_append]
        omega
      rw [requestBytes_append, take_append_of_le_length hlong]
      exact h.accepted

theorem Resumes.pump (hlawful : transport.Lawful accepted)
    (h : Resumes accepted origin legacyResizeAck writes completed rest written)
    (hrunning : writes.failed = false) {budget : Nat}
    (hstep : writes.step transport (.pump budget) = some writes') :
    ∃ completed rest written, Resumes accepted origin legacyResizeAck writes' completed rest written := by
  simp only [step, hrunning, Bool.false_eq_true, if_false, Option.some.injEq] at hstep
  have hshort : ∀ frame ∈ writes.outbound.frames, frame.written < frame.bytes.length := by
    rw [h.frames]
    cases rest with
    | nil => exact nofun
    | cons first rest =>
      intro frame hframe
      rw [resumed_frames] at hframe
      rcases mem_cons.mp hframe with rfl | hframe
      · exact h.lt hrunning first rfl
      · obtain ⟨request, -, rfl⟩ := List.mem_map.mp hframe
        rw [request.frame_written]
        exact request.frame_pos
  obtain ⟨done, left, place, hpumps⟩ := @pumpFrames_spec W transport accepted hlawful
    writes.outbound.legacyResizeAck writes.outbound.frames budget writes.metrics writes.events
    writes.stream hshort
  have hpumped : writes.outbound.pump transport budget writes.metrics writes.events writes.stream =
      pumpFrames transport writes.outbound.legacyResizeAck writes.outbound.frames budget
        writes.metrics writes.events writes.stream := rfl
  rw [← hpumped] at hpumps
  generalize writes.outbound.pump transport budget writes.metrics writes.events writes.stream =
    pumped at hpumps hstep
  subst hstep
  have hsplit := hpumps.split
  rw [h.frames] at hsplit
  obtain ⟨completed', rest', rfl, hcounted, hreported, hresumed, hhead⟩ := exists_requests hsplit
  have hle : ∀ request ∈ rest'.head?, place ≤ request.frame.bytes.length := by
    intro request hrequest
    obtain ⟨frame, hframe, hbytes⟩ := hhead request hrequest
    rw [← hbytes]
    exact hpumps.le frame hframe
  have hbytes : accepted pumped.stream =
      origin ++ requestBytes (completed ++ completed') ++ (requestBytes rest').take place := by
    have hconserved := hpumps.bytes
    rw [hpumps.left, hresumed, unsent_resumed hle, h.frames, unsent_resumed h.le, h.accepted,
      append_assoc, take_append_drop, requestBytes_append] at hconserved
    have hparts : accepted pumped.stream ++ (requestBytes rest').drop place =
        origin ++ requestBytes (completed ++ completed') ++ (requestBytes rest').take place ++
          (requestBytes rest').drop place := by
      rw [append_assoc _ (List.take place _), take_append_drop, requestBytes_append]
      simp only [append_assoc] at hconserved ⊢
      exact hconserved
    exact append_cancel_right hparts
  refine ⟨completed ++ completed', rest', place, ?_, ?_, hle, ?_, hbytes, ?_, ?_, ?_, h.legacy⟩
  · rw [append_assoc]
    exact h.queued
  · exact hpumps.left.trans (hresumed place)
  · intro hfine request hrequest
    obtain ⟨frame, hframe, hbytes⟩ := hhead request hrequest
    rw [← hbytes]
    refine hpumps.lt ?_ frame hframe
    dsimp only at hfine
    split at hfine
    · assumption
    · cases hfine
  · show pumped.metrics.inputBytes = _
    rw [hpumps.metrics, hcounted, countAll_frames, map_append, sum_append, h.inputBytes]
  · show pumped.metrics.resizeCount = _
    rw [hpumps.metrics, hcounted, countAll_frames, filterMap_append, length_append, h.resizeCount]
  · show writes.reported ++ pumped.events.drop writes.events.length = _
    rw [hpumps.events, drop_left, hreported, reports_frames, h.reported, h.legacy]
    cases legacyResizeAck <;> simp

theorem Resumes.step (hlawful : transport.Lawful accepted)
    (h : Resumes accepted origin legacyResizeAck writes completed rest written)
    {event : WriteStep W} (hundisturbed : writes.Undisturbed accepted event)
    (hstep : writes.step transport event = some writes') :
    ∃ completed rest written, Resumes accepted origin legacyResizeAck writes' completed rest written := by
  cases event with
  | queue request =>
    obtain ⟨place, hqueued⟩ := h.queue request
    cases hstep
    exact ⟨_, _, place, hqueued⟩
  | pump budget =>
    by_cases hfailed : writes.failed = true
    · rw [ClientWrites.step, if_pos hfailed] at hstep
      cases hstep
    · exact h.pump hlawful (Bool.eq_false_iff.mpr hfailed) hstep
  | elsewhere events stream =>
    cases hstep
    have hsame : accepted stream = accepted writes.stream := hundisturbed
    exact ⟨completed, rest, written, h.queued, h.frames, h.le, h.lt, hsame.trans h.accepted,
      h.inputBytes, h.resizeCount, h.reported, h.legacy⟩

end ClientWrites

/-- Writes are resumed where they stopped, in the order of the requests. -/
theorem writes_are_resumed {W : Type} {transport : Transport W} {accepted : W → List UInt8}
    (hlawful : transport.Lawful accepted) {protocolVersion : Nat} {stream : W} {writes : ClientWrites W}
    (h : Runs.Reaches (ClientWrites.step transport) (ClientWrites.Undisturbed accepted)
      (.start protocolVersion stream) writes) :
    ∃ completed rest written, writes.Resumes accepted (accepted stream) (decide (protocolVersion < 2))
        completed rest written ∧
      ∃ sent, accepted writes.stream = accepted stream ++ sent ∧ sent <+: requestBytes writes.queued := by
  have hall : ∃ completed rest written,
      writes.Resumes accepted (accepted stream) (decide (protocolVersion < 2)) completed rest written := by
    induction h with
    | refl =>
      refine ⟨[], [], 0, rfl, rfl, ?_, ?_, ?_, rfl, rfl, ?_, rfl⟩
      · exact nofun
      · exact nofun
      · simp [ClientWrites.start, requestBytes]
      · cases decide (protocolVersion < 2) <;> rfl
    | step _ hundisturbed hstep ih =>
      obtain ⟨completed, rest, written, hresumes⟩ := ih
      exact hresumes.step hlawful hundisturbed hstep
  obtain ⟨completed, rest, written, hresumes⟩ := hall
  refine ⟨completed, rest, written, hresumes,
    requestBytes completed ++ (requestBytes rest).take written, ?_, ?_⟩
  · rw [hresumes.accepted, append_assoc]
  · rw [hresumes.queued, ClientWrites.requestBytes_append]
    exact (prefix_append_right_inj _).mpr (List.take_prefix _ _)

/-- A transport that takes three bytes at a time. -/
def Transport.narrow : Transport (List UInt8) where
  cancelled _ := false
  write stream bytes := (.ok (min 3 bytes.length), stream ++ bytes.take 3)
  flush stream := (.ok (), stream)

theorem Transport.narrow_lawful : Transport.narrow.Lawful id := by
  constructor
  · intro stream bytes count stream' h
    cases h
    refine ⟨Nat.min_le_right _ _, ?_⟩
    show stream ++ bytes.take 3 = stream ++ bytes.take (min 3 bytes.length)
    rw [← take_take, take_length]
  · intro stream bytes error stream' h
    cases h
  · exact fun stream => rfl

/-- Seven bytes of eleven are written when the first budget is used up. The next call writes the others, and five of
the second request. -/
theorem writes_are_resumed_narrow :
    ∃ writes, Runs.Reaches (ClientWrites.step Transport.narrow) (ClientWrites.Undisturbed id)
        (.start 2 []) writes ∧
      writes.queued = [.input [104, 105], .input [33]] ∧ writes.stream.length = 16 ∧ writes.metrics.inputBytes = 2 ∧
      ∃ completed rest written, writes.Resumes id [] (decide (2 < 2)) completed rest written ∧
        ∃ sent, id writes.stream = [] ++ sent ∧ sent <+: requestBytes writes.queued := by
  have hqueue (writes : ClientWrites (List UInt8)) (request : OutboundRequest) :
      writes.Undisturbed id (.queue request) := trivial
  have hpump (writes : ClientWrites (List UInt8)) (budget : Nat) :
      writes.Undisturbed id (.pump budget) := trivial
  have hfirst : Runs.Reaches (ClientWrites.step Transport.narrow) (ClientWrites.Undisturbed id)
      (.start 2 []) _ := (Runs.Reaches.refl.step (hqueue _ (.input [104, 105])) rfl).step (hpump _ 7) rfl
  have hreaches : Runs.Reaches (ClientWrites.step Transport.narrow) (ClientWrites.Undisturbed id)
      (.start 2 []) _ := (hfirst.step (hqueue _ (.input [33])) rfl).step (hpump _ 9) rfl
  exact ⟨_, hreaches, rfl, by decide, by decide, writes_are_resumed Transport.narrow_lawful hreaches⟩

end FesTerm
