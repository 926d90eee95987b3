import FesTerm.Sessiond.Proofs.FrameProofs
import FesTerm.TunnelBridge.Proofs.SyncJsonProofs
import FesTerm.TunnelBridge.Relay

/-!
# The bridge is transparent as long as the JSON fits

A recovery command may be as long as a frame of the bridge, but it is mirrored bytes in JSON, where a byte takes up
to four. Whether the bridge carries a stream depends on nothing else: every other command is passed on as it is, and
what the client holds never grows past what it allows for.
-/

namespace FesTerm.TunnelBridge

open Framing List

/-! ## Frames of the bridge -/

variable {clientOnly : Bool}

variable {bytes : List UInt8}

theorem readFrame_short (h : bytes.length < 5) :
    readFrame clientOnly bytes = .ok none := by
  match bytes with
  | [] => rfl
  | [_] => rfl
  | [_, _] => rfl
  | [_, _, _] => rfl
  | [_, _, _, _] => rfl
  | _ :: _ :: _ :: _ :: _ :: _ =>
    simp only [length_cons] at h
    omega

theorem exists_header (h : 5 ≤ bytes.length) :
    ∃ kind a b c d rest, bytes = kind :: a :: b :: c :: d :: rest := by
  match bytes, h with
  | kind :: a :: b :: c :: d :: rest, _ => exact ⟨kind, a, b, c, d, rest, rfl⟩

theorem readFrame_header (clientOnly : Bool) (kind a b c d : UInt8) (rest : List UInt8) :
    readFrame clientOnly (kind :: a :: b :: c :: d :: rest) =
      if !validateLength kind (ofBytes [a, b, c, d]) then .error protocolRefused
      else if clientOnly && !fromClient kind then .error protocolRefused
      else if rest.length < ofBytes [a, b, c, d] then .ok none
      else .ok (some (⟨kind, rest.take (ofBytes [a, b, c, d])⟩, rest.drop (ofBytes [a, b, c, d]))) := rfl

theorem readFrame_lawful (clientOnly : Bool) : (readFrame clientOnly).Lawful where
  cut {held item rest} h := by
    by_cases hshort : held.length < 5
    · rw [readFrame_short hshort] at h
      cases h
    obtain ⟨kind, a, b, c, d, tail, rfl⟩ := exists_header (Nat.le_of_not_lt hshort)
    rw [readFrame_header] at h
    split at h
    · cases h
    split at h
    · cases h
    split at h
    · cases h
    next hvalid hkind hlength =>
    cases h
    refine ⟨kind :: a :: b :: c :: d :: tail.take (ofBytes [a, b, c, d]), cons_ne_nil _ _, ?_, fun more => ?_⟩
    · simp only [cons_append, take_append_drop]
    · have htake : (tail.take (ofBytes [a, b, c, d])).length = ofBytes [a, b, c, d] :=
        length_take_of_le (Nat.le_of_not_lt hlength)
      simp only [cons_append]
      rw [readFrame_header, if_neg hvalid, if_neg hkind, if_neg (by rw [length_append]; omega),
        take_left' htake, drop_left' htake]
  refuse {held error} more h := by
    by_cases hshort : held.length < 5
    · rw [readFrame_short hshort] at h
      cases h
    obtain ⟨kind, a, b, c, d, tail, rfl⟩ := exists_header (Nat.le_of_not_lt hshort)
    rw [readFrame_header] at h
    simp only [cons_append]
    rw [readFrame_header]
    split at h
    · next hvalid =>
      rw [if_pos hvalid]
      exact h
    · next hvalid =>
      rw [if_neg hvalid]
      split at h
      · next hkind =>
        rw [if_pos hkind]
        exact h
      · split at h
        · cases h
        · cases h

variable {maximum : Nat}

theorem maximumLength_lt {kind : UInt8} (h : maximumLength kind = some maximum) : maximum < 256 ^ 4 := by
  have hall : ∀ kind : Fin 256, (maximumLength (UInt8.ofFin kind)).all (· < 256 ^ 4) = true := by decide +kernel
  have hkind := hall kind.toFin
  rw [UInt8.ofFin_toFin, h] at hkind
  exact of_decide_eq_true hkind

variable {frame : BridgeFrame}

theorem readFrame_bytes (hvalid : validateLength frame.kind frame.payload.length = true)
    (hkind : clientOnly = true → fromClient frame.kind = true) (rest : List UInt8) :
    readFrame clientOnly (frame.bytes ++ rest) = .ok (some (frame, rest)) := by
  obtain ⟨maximum, hmaximum, hle⟩ : ∃ maximum, maximumLength frame.kind = some maximum ∧
      frame.payload.length ≤ maximum := by
    rw [validateLength, Option.any_eq_true] at hvalid
    obtain ⟨maximum, hmaximum, hle⟩ := hvalid
    exact ⟨maximum, hmaximum, of_decide_eq_true hle⟩
  have hcount : ofBytes (toBytes 4 frame.payload.length) = frame.payload.length :=
    ofBytes_toBytes (lt_of_le_of_lt hle (maximumLength_lt hmaximum))
  have hbytes : frame.bytes ++ rest = frame.kind :: (toBytes 4 frame.payload.length ++ (frame.payload ++ rest)) := by
    rw [BridgeFrame.bytes, cons_append, cons_append, append_assoc]
  rw [hbytes]
  simp only [toBytes, cons_append, nil_append] at hcount ⊢
  rw [readFrame_header, hcount, if_neg (by rw [hvalid]; decide), if_neg, if_neg, take_left, drop_left]
  · rw [length_append]
    omega
  · cases clientOnly with
    | false => exact Bool.false_ne_true
    | true =>
      rw [hkind rfl]
      decide

theorem drain_frames {frames : List BridgeFrame}
    (h : ∀ frame ∈ frames, validateLength frame.kind frame.payload.length = true ∧
      (clientOnly = true → fromClient frame.kind = true)) :
    drain (readFrame clientOnly) (frames.flatMap BridgeFrame.bytes) = (frames, .ok []) := by
  have hcodes : Forall₂
      (fun frame code => ∀ rest, readFrame clientOnly (code ++ rest) = .ok (some (frame, rest))) frames
      (frames.map BridgeFrame.bytes) := by
    induction frames with
    | nil => exact .nil
    | cons frame frames ih =>
      obtain ⟨hvalid, hkind⟩ := h frame (mem_cons_self ..)
      exact .cons (readFrame_bytes hvalid hkind) (ih fun other hother => h other (mem_cons_of_mem _ hother))
  exact (drains_codes (readFrame_short (by decide)) hcodes).drain_eq (readFrame_lawful clientOnly)

/-! ## Sizes -/

theorem ofBytes_pair (value : UInt16) :
    UInt16.ofNat (ofBytes [UInt8.ofNat (value.toNat / 256 ^ 1), UInt8.ofNat (value.toNat / 256 ^ 0)]) = value := by
  have hvalue : ofBytes (toBytes 2 value.toNat) = value.toNat := ofBytes_toBytes value.toNat_lt
  simp only [toBytes] at hvalue
  rw [hvalue, UInt16.ofNat_toNat]

variable (pixelWidth pixelHeight : UInt16)

theorem decodeSize_encodeSizeFields {columns rows : UInt16}
    (hcolumns : columns ≤ maximumColumns) (hrows : rows ≤ maximumRows) :
    decodeSize (encodeSizeFields columns rows pixelWidth pixelHeight) =
      (TerminalSize.withPixels columns rows pixelWidth pixelHeight).mapError fun _ => protocolRefused := by
  have hfields : encodeSizeFields columns rows pixelWidth pixelHeight =
      [UInt8.ofNat (columns.toNat / 256 ^ 1), UInt8.ofNat (columns.toNat / 256 ^ 0),
        UInt8.ofNat (rows.toNat / 256 ^ 1), UInt8.ofNat (rows.toNat / 256 ^ 0),
        UInt8.ofNat (pixelWidth.toNat / 256 ^ 1), UInt8.ofNat (pixelWidth.toNat / 256 ^ 0),
        UInt8.ofNat (pixelHeight.toNat / 256 ^ 1), UInt8.ofNat (pixelHeight.toNat / 256 ^ 0)] := rfl
  have hwithin : ¬ (columns > maximumColumns ∨ rows > maximumRows) := by
    rintro (hwide | hhigh)
    · exact UInt16.not_lt.mpr hcolumns hwide
    · exact UInt16.not_lt.mpr hrows hhigh
  rw [hfields, decodeSize]
  simp only [ofBytes_pair]
  rw [if_neg hwithin]

theorem withPixels_of_valid {columns rows : UInt16} (hcolumns : 2 ≤ columns) (hrows : 1 ≤ rows) :
    TerminalSize.withPixels columns rows pixelWidth pixelHeight =
      .ok ⟨columns, rows, some pixelWidth, some pixelHeight, hcolumns, hrows⟩ := by
  unfold TerminalSize.withPixels TerminalSize.new
  rw [dif_pos hcolumns, dif_pos hrows]
  rfl

variable {size : TerminalSize}

theorem decodeSize_encodeResize (hcolumns : size.columns ≤ maximumColumns) (hrows : size.rows ≤ maximumRows) :
    decodeSize (encodeResize size) = .ok { size with
      pixelWidth := some (size.pixelWidth.getD 0), pixelHeight := some (size.pixelHeight.getD 0) } := by
  rw [encodeResize, decodeSize_encodeSizeFields _ _ hcolumns hrows,
    withPixels_of_valid _ _ size.two_le_columns size.one_le_rows]
  rfl

/-! ## What the client holds -/

section

variable [Bincode] [SyncJson]

/-- `client_send` cuts the stream as the parser of the daemon does, and refuses with a text of its own. -/
def sendFormat : FrameFormat where
  magic := frameMagic
  invalidMagic := "experimental tunnel protocol refused"
  tooLarge := "experimental tunnel protocol refused"

omit [Bincode] [SyncJson] in
theorem length_sendFormat : sendFormat.magic.length = 4 := by decide +kernel

theorem sendNext_eq : sendNext = frameTake sendFormat fun kind payload => some (sendFrame kind payload) := by
  funext bytes
  by_cases hshort : bytes.length < frameHeaderBytes
  · rw [frameTake, frameHeader, if_pos hshort]
    unfold sendNext
    split
    · simp only [length_cons, frameHeaderBytes] at hshort
      omega
    · rfl
  obtain ⟨magic, kind, lengths, tail, rfl, hmagic, hlengths⟩ := split_header (Nat.le_of_not_lt hshort)
  have hheader := frameHeader_long sendFormat kind hmagic hlengths length_sendFormat tail
  obtain ⟨m₁, m₂, m₃, m₄, rfl⟩ := length_eq_four.mp hmagic
  obtain ⟨a, b, c, d, rfl⟩ := length_eq_four.mp hlengths
  have hformat : sendFormat.magic = frameMagic := rfl
  have hlimit : maxFrameBytes = chunkLimit := rfl
  rw [hformat, hlimit] at hheader
  simp only [cons_append, nil_append] at hheader ⊢
  rw [sendNext, frameTake, hheader]
  by_cases hmagic : [m₁, m₂, m₃, m₄] ≠ frameMagic
  · rw [if_pos hmagic, if_pos hmagic]
    rfl
  rw [if_neg hmagic, if_neg hmagic]
  by_cases hlarge : ofBytes [a, b, c, d] > chunkLimit
  · rw [if_pos hlarge, if_pos hlarge]
    rfl
  rw [if_neg hlarge, if_neg hlarge]
  by_cases htail : tail.length < ofBytes [a, b, c, d]
  · rw [if_pos htail, if_pos htail]
  rw [if_neg htail, if_neg htail]
  have hframe : (m₁ :: m₂ :: m₃ :: m₄ :: kind :: a :: b :: c :: d :: tail).take
      (frameHeaderBytes + ofBytes [a, b, c, d]) =
        m₁ :: m₂ :: m₃ :: m₄ :: kind :: a :: b :: c :: d :: tail.take (ofBytes [a, b, c, d]) := by
    rw [frameHeaderBytes, Nat.add_comm]
    rfl
  have hrest : (m₁ :: m₂ :: m₃ :: m₄ :: kind :: a :: b :: c :: d :: tail).drop
      (frameHeaderBytes + ofBytes [a, b, c, d]) = tail.drop (ofBytes [a, b, c, d]) := by
    rw [frameHeaderBytes, Nat.add_comm]
    rfl
  simp only [hframe, hrest]
  cases hsend : sendFrame kind (tail.take (ofBytes [a, b, c, d])) with
  | error error | ok frame =>
    simp only [frameHeaderBytes, drop_succ_cons, drop_zero, hsend]
    rfl

theorem sendFrame_total : Total fun kind payload => some (sendFrame kind payload) :=
  fun kind payload => ⟨sendFrame kind payload, rfl⟩

theorem sendNext_lawful : (sendNext).Lawful := by
  rw [sendNext_eq]
  exact frameTake_lawful length_sendFormat sendFrame_total

variable {kind : UInt8} {payload : List UInt8} {command : RecoverySyncCommand}

theorem sendNext_encodeFrame (h : payload.length ≤ maxFrameBytes) (rest : List UInt8) :
    sendNext (encodeFrame kind payload ++ rest) = (sendFrame kind payload).map fun frame => some (frame, rest) := by
  rw [sendNext_eq]
  exact frameTake_encode length_sendFormat h rfl rest

theorem clientSend_eq {pending : List UInt8} (h : sendNext pending = .ok none) (chunks : List Chunk) :
    clientSend pending chunks = drain sendNext (pending ++ (chunks.map Chunk.bytes).flatten) := by
  have hreads : clientSend pending chunks = reads sendNext pending (chunks.map Chunk.bytes) := by
    induction chunks generalizing pending with
    | nil => rfl
    | cons chunk chunks ih =>
      have hroom : pending.length < frameHeaderBytes + maxFrameBytes := by
        rw [sendNext_eq] at h
        exact frameTake_room length_sendFormat sendFrame_total h
      have hchunk := chunk.length_le
      have hlimit : maxFrameBytes = chunkLimit := rfl
      rw [clientSend, if_neg (by omega), map_cons, reads]
      have hdrains := drain_drains sendNext_lawful (pending ++ chunk.bytes)
      rcases hdrain : drain sendNext (pending ++ chunk.bytes) with ⟨frames, error | rest⟩
      · rfl
      · rw [hdrain] at hdrains
        simp only [ih hdrains.waiting]
  rw [hreads, reads_eq sendNext_lawful h]

/-! ## Commands -/

section

omit [Bincode] [SyncJson]

theorem maximumLength_relayed :
    maximumLength Kind.input = some chunkLimit ∧ maximumLength Kind.output = some chunkLimit ∧
      maximumLength Kind.sync = some chunkLimit ∧ maximumLength Kind.resize = some 8 ∧
      maximumLength Kind.resized = some 8 ∧ maximumLength Kind.adopted = some 0 := by
  decide +kernel

theorem validateLength_of {length : Nat} (hmaximum : maximumLength kind = some maximum)
    (h : length ≤ maximum) : validateLength kind length = true := by
  rw [validateLength, hmaximum]
  exact decide_eq_true h

theorem writeFrame_of_valid (h : validateLength kind payload.length = true) :
    writeFrame kind payload = .ok ⟨kind, payload⟩ := by
  rw [writeFrame, if_pos h]

end

omit [SyncJson] in
theorem serialize_of_encode (h : encodeRecoverySyncCommand command = .ok payload) :
    Bincode.serialize command = .ok payload ∧ payload.length ≤ maxFrameBytes := by
  unfold encodeRecoverySyncCommand at h
  split at h
  · cases h
  · next written hwritten =>
    split at h
    · cases h
    · next hlength =>
      cases h
      exact ⟨hwritten, Nat.le_of_not_lt hlength⟩

theorem syncToJson_of_encode (hbincode : Bincode.RoundTrips)
    (h : encodeRecoverySyncCommand command = .ok payload) :
    syncToJson payload = (SyncJson.write (Sync.ofCommand command)).mapError fun _ => protocolRefused := by
  obtain ⟨hserialized, -⟩ := serialize_of_encode h
  rw [syncToJson, decodeRecoverySyncCommand, hbincode command payload hserialized]

omit [Bincode] in
theorem syncFromJson_of_write (hjson : SyncJson.RoundTrips)
    (h : SyncJson.write (Sync.ofCommand command) = .ok payload) (haccepted : Accepted command) :
    syncFromJson payload = .ok command := by
  rw [syncFromJson, hjson _ _ h]
  exact haccepted

/-- The frame of the bridge that a frame of the client becomes, and what it becomes at the host. -/
structure Carried (command : ClientCommand) (code : List UInt8) (frame : BridgeFrame) : Prop where
  sent : ∀ rest, sendNext (code ++ rest) = .ok (some (frame, rest))
  valid : validateLength frame.kind frame.payload.length = true
  client : fromClient frame.kind = true
  relayed : command ≠ .recoveryAdopted → relayCommand frame = .ok command
  adopted : command = .recoveryAdopted → frame = ⟨Kind.adopted, []⟩

theorem carried_of_send {command : ClientCommand}
    (hlength : payload.length ≤ maxFrameBytes) (hsend : sendFrame kind payload = .ok frame)
    (hvalid : validateLength frame.kind frame.payload.length = true) (hclient : fromClient frame.kind = true)
    (hrelayed : command ≠ .recoveryAdopted → relayCommand frame = .ok command)
    (hadopted : command = .recoveryAdopted → frame = ⟨Kind.adopted, []⟩) :
    Carried command (encodeFrame kind payload) frame where
  sent rest := by
    rw [sendNext_encodeFrame hlength, hsend]
    rfl
  valid := hvalid
  client := hclient
  relayed := hrelayed
  adopted := hadopted

theorem carried_input {data : List UInt8} (h : data.length ≤ maxFrameBytes) :
    Carried (.input data) (encodeFrame frameInput data) ⟨Kind.input, data⟩ := by
  obtain ⟨hmaximum, -⟩ := maximumLength_relayed
  have hvalid : validateLength Kind.input data.length = true := validateLength_of hmaximum h
  apply carried_of_send h _ hvalid rfl
  · intro _
    rfl
  · intro hadopted
    cases hadopted
  · show writeFrame Kind.input data = .ok ⟨Kind.input, data⟩
    exact writeFrame_of_valid hvalid

theorem carried_resize (hcolumns : size.columns ≤ maximumColumns) (hrows : size.rows ≤ maximumRows) :
    Carried (.resize ⟨size.rows, size.columns, size.pixelWidth.getD 0, size.pixelHeight.getD 0⟩)
      (encodeFrame frameResize (encodeResize size)) ⟨Kind.resize, encodeResize size⟩ := by
  obtain ⟨-, -, -, hmaximum, -⟩ := maximumLength_relayed
  have hlength : (encodeResize size).length = 8 := rfl
  have hvalid : validateLength Kind.resize (encodeResize size).length = true :=
    validateLength_of hmaximum hlength.le
  apply carried_of_send (by rw [hlength, maxFrameBytes]; omega) _ hvalid rfl
  · intro _
    have hrelayed : relayCommand ⟨Kind.resize, encodeResize size⟩ = (do
        let size ← decodeSize (encodeResize size)
        .ok (.resize ⟨size.rows, size.columns, size.pixelWidth.getD 0, size.pixelHeight.getD 0⟩)) := rfl
    rw [hrelayed, decodeSize_encodeResize hcolumns hrows]
    rfl
  · intro hadopted
    cases hadopted
  · show writeFrame Kind.resize (encodeResize size) = .ok ⟨Kind.resize, encodeResize size⟩
    exact writeFrame_of_valid hvalid

theorem sendFrame_sync (payload : List UInt8) : sendFrame frameRecoverySync payload = (do
      let bytes ← syncToJson payload
      writeFrame Kind.sync bytes) := rfl

theorem carried_sync (hbincode : Bincode.RoundTrips) (hjson : SyncJson.RoundTrips)
    {json : List UInt8} (hencode : encodeRecoverySyncCommand command = .ok payload)
    (haccepted : Accepted command) (hwrite : SyncJson.write (Sync.ofCommand command) = .ok json)
    (hfits : json.length ≤ chunkLimit) :
    Carried (.recoverySync command) (encodeFrame frameRecoverySync payload) ⟨Kind.sync, json⟩ := by
  obtain ⟨-, -, hmaximum, -⟩ := maximumLength_relayed
  have hvalid : validateLength Kind.sync json.length = true := validateLength_of hmaximum hfits
  apply carried_of_send (serialize_of_encode hencode).2 _ hvalid rfl
  · intro _
    have hrelayed : relayCommand ⟨Kind.sync, json⟩ = (do
        let command ← syncFromJson json
        .ok (.recoverySync command)) := rfl
    rw [hrelayed, syncFromJson_of_write hjson hwrite haccepted]
    rfl
  · intro hadopted
    cases hadopted
  · rw [sendFrame_sync, syncToJson_of_encode hbincode hencode, hwrite]
    exact writeFrame_of_valid hvalid

theorem carried_adopted :
    Carried .recoveryAdopted (encodeFrame frameRecoveryAdopted []) ⟨Kind.adopted, []⟩ := by
  apply carried_of_send (Nat.zero_le _) rfl (by decide +kernel) (by decide +kernel)
  · intro hne
    exact absurd rfl hne
  · intro _
    rfl

variable {code : List UInt8}

theorem exists_carried (hbincode : Bincode.RoundTrips) (hjson : SyncJson.RoundTrips)
    {command : ClientCommand} (hcode : FesTerm.ClientFrame command code)
    (hwithin : CommandWithin command)
    (hfits : ∀ sync, command = .recoverySync sync → Fits sync) : ∃ frame, Carried command code frame := by
  cases hcode with
  | input data hlength => exact ⟨_, carried_input hlength⟩
  | resize size =>
    obtain ⟨hcolumns, hrows⟩ := hwithin
    exact ⟨_, carried_resize hcolumns hrows⟩
  | recoverySync hencode =>
    obtain ⟨json, hwrite, hlength⟩ := hfits _ rfl
    exact ⟨_, carried_sync hbincode hjson hencode hwithin hwrite hlength⟩
  | recoveryAdopted => exact ⟨_, carried_adopted⟩

theorem sendNext_refuses (hbincode : Bincode.RoundTrips)
    (hcode : FesTerm.ClientFrame (.recoverySync command) code) (hfits : ¬ Fits command) (rest : List UInt8) :
    ∃ error, sendNext (code ++ rest) = .error error := by
  cases hcode with
  | @recoverySync _ payload hencode =>
    rw [sendNext_encodeFrame (serialize_of_encode hencode).2, sendFrame_sync, syncToJson_of_encode hbincode hencode]
    cases hwrite : SyncJson.write (Sync.ofCommand command) with
    | error error => exact ⟨_, rfl⟩
    | ok json =>
      have hlong : ¬ json.length ≤ chunkLimit := fun hle => hfits ⟨json, hwrite, hle⟩
      obtain ⟨-, -, hmaximum, -⟩ := maximumLength_relayed
      have hrefused : writeFrame Kind.sync json = .error protocolRefused := by
        rw [writeFrame, if_neg]
        rw [validateLength, hmaximum]
        exact fun hvalid => hlong (of_decide_eq_true hvalid)
      refine ⟨protocolRefused, ?_⟩
      show (writeFrame Kind.sync json).map _ = _
      rw [hrefused]
      rfl

/-! ## Streams of commands -/

variable {commands : List ClientCommand} {codes : List (List UInt8)} {frames : List BridgeFrame}
  {taken : List ClientCommand}

def CarriedBy (command : ClientCommand) (frame : BridgeFrame) : Prop := ∃ code, Carried command code frame

omit [Bincode] [SyncJson] in
theorem sendNext_nil [Bincode] [SyncJson] : sendNext [] = .ok none := rfl

theorem drains_carried (hbincode : Bincode.RoundTrips) (hjson : SyncJson.RoundTrips)
    (hcodes : Forall₂ FesTerm.ClientFrame commands codes) (hwithin : ∀ command ∈ commands, CommandWithin command)
    (hfits : ∀ command, .recoverySync command ∈ commands → Fits command) :
    ∃ frames, Forall₂ CarriedBy commands frames ∧ Drains sendNext codes.flatten frames (.ok []) := by
  induction hcodes with
  | nil => exact ⟨[], .nil, .waits sendNext_nil⟩
  | @cons command code commands codes hcode _ ih =>
    obtain ⟨frame, hcarried⟩ := exists_carried hbincode hjson hcode (hwithin command (mem_cons_self ..))
      fun sync hsync => hfits sync (by rw [hsync]; exact mem_cons_self ..)
    obtain ⟨frames, hframes, hdrains⟩ := ih (fun other hother => hwithin other (mem_cons_of_mem _ hother))
      fun sync hsync => hfits sync (mem_cons_of_mem _ hsync)
    exact ⟨frame :: frames, .cons ⟨code, hcarried⟩ hframes, .takes (hcarried.sent _) hdrains⟩

theorem drains_refused (hbincode : Bincode.RoundTrips) (hjson : SyncJson.RoundTrips)
    (hcodes : Forall₂ FesTerm.ClientFrame commands codes) (hwithin : ∀ command ∈ commands, CommandWithin command)
    {sync : RecoverySyncCommand} (hsync : .recoverySync sync ∈ commands) (hfits : ¬ Fits sync) :
    ∃ frames error, Drains sendNext codes.flatten frames (.error error) := by
  induction hcodes with
  | nil => cases hsync
  | @cons command code commands codes hcode _ ih =>
    by_cases hall : ∀ other, command = .recoverySync other → Fits other
    · obtain ⟨frame, hcarried⟩ := exists_carried hbincode hjson hcode (hwithin command (mem_cons_self ..)) hall
      have hlater : .recoverySync sync ∈ commands := by
        rcases mem_cons.mp hsync with heq | hlater
        · exact absurd (hall sync heq.symm) hfits
        · exact hlater
      obtain ⟨frames, error, hdrains⟩ := ih (fun other hother => hwithin other (mem_cons_of_mem _ hother)) hlater
      exact ⟨frame :: frames, error, .takes (hcarried.sent _) hdrains⟩
    · push Not at hall
      obtain ⟨other, rfl, hother⟩ := hall
      obtain ⟨error, hrefused⟩ := sendNext_refuses hbincode hcode hother codes.flatten
      exact ⟨[], error, .refuses hrefused⟩

variable {chunks : List Chunk}

theorem clientSend_of_drains {result : Except IoError (List UInt8)}
    (hchunks : (chunks.map Chunk.bytes).flatten = codes.flatten) (h : Drains sendNext codes.flatten frames result) :
    clientSend [] chunks = (frames, result) := by
  rw [clientSend_eq sendNext_nil, nil_append, hchunks]
  exact h.drain_eq sendNext_lawful

variable {accepts : List ClientCommand → ClientCommand → Bool}

theorem serveFrames_carried
    (h : Forall₂ CarriedBy commands frames) (hadopted : .recoveryAdopted ∉ commands) :
    serveFrames accepts taken frames = handOver accepts taken commands := by
  induction h generalizing taken with
  | nil => rfl
  | @cons command frame commands frames hcarried _ ih =>
    obtain ⟨code, hcarried⟩ := hcarried
    rw [mem_cons, not_or] at hadopted
    obtain ⟨hcommand, hlater⟩ := hadopted
    rw [serveFrames, hcarried.relayed (Ne.symm hcommand), handOver]
    simp only [Ne.symm hcommand, false_or]
    split
    · exact ih hlater
    · rfl

theorem not_mem_of_serveFrames (h : Forall₂ CarriedBy commands frames)
    (hserved : (serveFrames (fun _ _ => true) taken frames).2 = true) : .recoveryAdopted ∉ commands := by
  induction h generalizing taken with
  | nil => exact not_mem_nil
  | @cons command frame commands frames hcarried _ ih =>
    obtain ⟨code, hcarried⟩ := hcarried
    by_cases hcommand : command = .recoveryAdopted
    · rw [hcarried.adopted hcommand] at hserved
      cases hserved
    · rw [serveFrames, hcarried.relayed hcommand] at hserved
      rw [mem_cons, not_or]
      exact ⟨Ne.symm hcommand, ih hserved⟩

omit [Bincode] [SyncJson] in
theorem handOver_all (commands : List ClientCommand) :
    handOver (fun _ _ => true) taken commands = (taken ++ commands, true) := by
  induction commands generalizing taken with
  | nil => rw [handOver, append_nil]
  | cons command commands ih =>
    rw [handOver, if_pos (.inr rfl), ih, append_assoc]
    rfl

theorem valid_of_carried (h : Forall₂ CarriedBy commands frames) :
    ∀ frame ∈ frames, validateLength frame.kind frame.payload.length = true ∧ fromClient frame.kind = true := by
  induction h with
  | nil => exact forall_mem_nil _
  | cons hcarried _ ih =>
    obtain ⟨code, hcarried⟩ := hcarried
    exact forall_mem_cons.mpr ⟨⟨hcarried.valid, hcarried.client⟩, ih⟩

theorem serve_frames (h : Forall₂ CarriedBy commands frames) :
    serve accepts (frames.flatMap BridgeFrame.bytes) =
      match frames with
      | [] => ([], true)
      | first :: frames =>
        if first.kind = Kind.adopted ∧ first.payload = [] then serveFrames accepts [.recoveryAdopted] frames
        else ([], false) := by
  have hdrain : drain (readFrame true) (frames.flatMap BridgeFrame.bytes) = (frames, .ok []) := by
    apply drain_frames
    intro frame hframe
    obtain ⟨hvalid, hclient⟩ := valid_of_carried h frame hframe
    exact ⟨hvalid, fun _ => hclient⟩
  rw [serve, hdrain]
  cases frames with
  | nil => rfl
  | cons first frames =>
    simp only
    split
    · show ((serveFrames accepts [.recoveryAdopted] frames).1,
        (serveFrames accepts [.recoveryAdopted] frames).2 && true) = _
      rw [Bool.and_true]
    · rfl

theorem serve_adopts (h : Forall₂ CarriedBy commands frames) :
    (∀ accepts, serve accepts (frames.flatMap BridgeFrame.bytes) = handOver accepts [] commands) ↔ Adopts commands := by
  cases h with
  | nil => exact ⟨fun _ => trivial, fun _ _ => rfl⟩
  | @cons command frame commands frames hcarried hlater =>
    have hserve := fun accepts => @serve_frames _ _ _ _ accepts (.cons hcarried hlater)
    simp only at hserve
    obtain ⟨code, hcarried⟩ := hcarried
    constructor
    · intro hall
      have hserved := (hserve fun _ _ => true).symm.trans (hall _)
      rw [handOver_all] at hserved
      split at hserved
      · next hfirst =>
        have hcommand : command = .recoveryAdopted := by
          by_contra hne
          have hrelayed := hcarried.relayed hne
          rw [relayCommand, hfirst.1] at hrelayed
          cases hrelayed
        exact ⟨hcommand, not_mem_of_serveFrames hlater (congrArg Prod.snd hserved)⟩
      · cases congrArg Prod.snd hserved
    · rintro ⟨rfl, hnone⟩ accepts
      rw [hserve, if_pos, serveFrames_carried hlater hnone, handOver, if_pos (.inl rfl)]
      · rfl
      · rw [hcarried.adopted rfl]
        exact ⟨rfl, rfl⟩

theorem carriesCommands_iff (hbincode : Bincode.RoundTrips) (hjson : SyncJson.RoundTrips)
    (hcodes : Forall₂ FesTerm.ClientFrame commands codes)
    (hwithin : ∀ command ∈ commands, CommandWithin command)
    (hchunks : (chunks.map Chunk.bytes).flatten = codes.flatten) :
    CarriesCommands commands chunks ↔
      Adopts commands ∧ ∀ command, .recoverySync command ∈ commands → Fits command := by
  constructor
  · rintro ⟨frames, hsent, -, hserved⟩
    have hfits : ∀ command, .recoverySync command ∈ commands → Fits command := by
      intro command hcommand
      by_contra hfits
      obtain ⟨others, error, hdrains⟩ := drains_refused hbincode hjson hcodes hwithin hcommand hfits
      rw [clientSend_of_drains hchunks hdrains] at hsent
      cases hsent
    obtain ⟨others, hcarried, hdrains⟩ := drains_carried hbincode hjson hcodes hwithin hfits
    rw [clientSend_of_drains hchunks hdrains] at hsent
    cases hsent
    exact ⟨(serve_adopts hcarried).mp hserved, hfits⟩
  · rintro ⟨hadopts, hfits⟩
    obtain ⟨frames, hcarried, hdrains⟩ := drains_carried hbincode hjson hcodes hwithin hfits
    refine ⟨frames, clientSend_of_drains hchunks hdrains, fun frame hframe => ?_, (serve_adopts hcarried).mpr hadopts⟩
    exact (valid_of_carried hcarried frame hframe).1

/-! ## Events -/

variable {events : List ServerFrameEvent} {daemonFrames : List (List UInt8)} {displacer : Displacer}

def GoesOn (kind : UInt8) : Prop := kind ≠ Kind.exited ∧ kind ≠ Kind.displaced

/-- The frame of the bridge that an event becomes, and the frame of a daemon that the client makes of it. -/
structure Reported (displacer : Displacer) (event : ServerFrameEvent) (daemonFrame : List UInt8)
    (frame : BridgeFrame) : Prop where
  served : serveEvent displacer event = .ok frame
  valid : validateLength frame.kind frame.payload.length = true
  goesOn : event ≠ .exited ∧ event ≠ .stolen
  received : receiveFrame frame = .ok daemonFrame
  goesOnToo : GoesOn frame.kind

omit [SyncJson] in
theorem encode_unique {other : RecoverySyncCommand} (hbincode : Bincode.RoundTrips)
    (h : encodeRecoverySyncCommand command = .ok payload) (h' : encodeRecoverySyncCommand other = .ok payload) :
    command = other := by
  have hread := hbincode command payload (serialize_of_encode h).1
  have hread' := hbincode other payload (serialize_of_encode h').1
  exact Except.ok.inj (hread.symm.trans hread')

omit [Bincode] [SyncJson] in
theorem goesOn_reported : GoesOn Kind.output ∧ GoesOn Kind.sync ∧ GoesOn Kind.resized :=
  ⟨⟨by decide, by decide⟩, ⟨by decide, by decide⟩, ⟨by decide, by decide⟩⟩

theorem serveEvent_sync (payload : List UInt8) : serveEvent displacer (.recoverySync payload) = (do
      let bytes ← syncToJson payload
      writeFrame Kind.sync bytes) := rfl

theorem exists_reported (hbincode : Bincode.RoundTrips) (hjson : SyncJson.RoundTrips) {event : ServerFrameEvent}
    {daemonFrame : List UInt8} (hframe : ServerFrame event daemonFrame) (hwithin : EventWithin event)
    (hfits : ∀ command payload, encodeRecoverySyncCommand command = .ok payload → event = .recoverySync payload →
      Fits command) : ∃ frame, Reported displacer event daemonFrame frame := by
  obtain ⟨-, houtput, hsync, -, hresized, -⟩ := maximumLength_relayed
  obtain ⟨hgoes, hgoesSync, hgoesResized⟩ := goesOn_reported
  cases hframe with
  | output bytes hlength =>
    have hvalid : validateLength Kind.output bytes.length = true := validateLength_of houtput hlength
    exact ⟨⟨Kind.output, bytes⟩, writeFrame_of_valid hvalid, hvalid, ⟨nofun, nofun⟩, rfl, hgoes⟩
  | @recoverySync command payload hencode =>
    obtain ⟨json, hwrite, hlength⟩ := hfits command payload hencode rfl
    obtain ⟨other, hother, haccepted⟩ := hwithin
    obtain rfl := encode_unique hbincode hencode hother
    have hvalid : validateLength Kind.sync json.length = true := validateLength_of hsync hlength
    refine ⟨⟨Kind.sync, json⟩, ?_, hvalid, ⟨nofun, nofun⟩, ?_, hgoesSync⟩
    · rw [serveEvent_sync, syncToJson_of_encode hbincode hencode, hwrite]
      exact writeFrame_of_valid hvalid
    · have hreceive : receiveFrame ⟨Kind.sync, json⟩ = (do
          let command ← syncFromJson json
          let encoded ← (encodeRecoverySyncCommand command).mapError fun _ => protocolRefused
          .ok (encodeServerFrame serverFrameRecoverySync encoded)) := rfl
      rw [hreceive, syncFromJson_of_write hjson hwrite haccepted]
      show ((encodeRecoverySyncCommand command).mapError _ >>= _) = _
      rw [hencode]
      rfl
  | @resizeApplied size applied happlied =>
    obtain ⟨hcolumns, hrows⟩ := hwithin
    have hfields : encodeResize applied =
        encodeSizeFields size.cols size.rows size.pixelWidth size.pixelHeight := by
      unfold TerminalSize.withPixels TerminalSize.new at happlied
      split at happlied
      · split at happlied
        · cases happlied
          rfl
        · cases happlied
      · cases happlied
    have hlength : (encodeResize applied).length = 8 := rfl
    have hvalid : validateLength Kind.resized (encodeResize applied).length = true :=
      validateLength_of hresized hlength.le
    refine ⟨⟨Kind.resized, encodeResize applied⟩, writeFrame_of_valid hvalid, hvalid, ⟨nofun, nofun⟩, ?_,
      hgoesResized⟩
    have hreceive : receiveFrame ⟨Kind.resized, encodeResize applied⟩ = (do
        let _ ← decodeSize (encodeResize applied)
        .ok (encodeServerFrame serverFrameResizeApplied (encodeResize applied))) := rfl
    rw [hreceive, decodeSize_encodeResize hcolumns hrows, hfields]
    rfl
  | stolen | exited => exact hwithin.elim

theorem serveEvent_refuses (hbincode : Bincode.RoundTrips)
    (hencode : encodeRecoverySyncCommand command = .ok payload) (hfits : ¬ Fits command) :
    ∃ error, serveEvent displacer (.recoverySync payload) = .error error := by
  obtain ⟨error, hrefused⟩ := sendNext_refuses hbincode (.recoverySync hencode) hfits []
  rw [sendNext_encodeFrame (serialize_of_encode hencode).2, sendFrame_sync] at hrefused
  rw [serveEvent_sync]
  cases hsent : (do
      let bytes ← syncToJson payload
      writeFrame Kind.sync bytes : Except IoError BridgeFrame) with
  | error error => exact ⟨error, rfl⟩
  | ok frame =>
    rw [hsent] at hrefused
    cases hrefused

def ReportedBy (displacer : Displacer) (daemonFrame : List UInt8) (frame : BridgeFrame) : Prop :=
  ∃ event, Reported displacer event daemonFrame frame

theorem serveEvents_reported (hbincode : Bincode.RoundTrips) (hjson : SyncJson.RoundTrips)
    (hframes : Forall₂ ServerFrame events daemonFrames) (hwithin : ∀ event ∈ events, EventWithin event)
    (hfits : ∀ command payload, encodeRecoverySyncCommand command = .ok payload →
      .recoverySync payload ∈ events → Fits command) :
    ∃ frames, serveEvents displacer events = (frames, true) ∧
      Forall₂ (ReportedBy displacer) daemonFrames frames := by
  induction hframes with
  | nil => exact ⟨[], rfl, .nil⟩
  | @cons event daemonFrame events daemonFrames hframe _ ih =>
    obtain ⟨frame, hreported⟩ : ∃ frame, Reported displacer event daemonFrame frame :=
      exists_reported hbincode hjson hframe (hwithin event (mem_cons_self ..)) fun command payload hencode hevent =>
        hfits command payload hencode (by rw [hevent]; exact mem_cons_self ..)
    obtain ⟨frames, hserved, hlater⟩ := ih (fun other hother => hwithin other (mem_cons_of_mem _ hother))
      fun command payload hencode hevent => hfits command payload hencode (mem_cons_of_mem _ hevent)
    refine ⟨frame :: frames, ?_, .cons ⟨event, hreported⟩ hlater⟩
    obtain ⟨hexited, hstolen⟩ := hreported.goesOn
    rw [serveEvents, hreported.served]
    simp only [hexited, hstolen, or_self, if_false, hserved]

theorem fits_of_serveEvents (hbincode : Bincode.RoundTrips)
    (hencode : encodeRecoverySyncCommand command = .ok payload) (hevent : .recoverySync payload ∈ events)
    (h : (serveEvents displacer events).2 = true) : Fits command := by
  induction events with
  | nil => cases hevent
  | cons event events ih =>
    rw [serveEvents] at h
    rcases mem_cons.mp hevent with heq | hlater
    · by_contra hfits
      obtain ⟨error, hrefused⟩ : ∃ error, serveEvent displacer (.recoverySync payload) = .error error :=
        serveEvent_refuses hbincode hencode hfits
      rw [← heq, hrefused] at h
      cases h
    · split at h
      · cases h
      · split at h
        · cases h
        · exact ih hlater h

theorem receiveFrames_reported (h : Forall₂ (ReportedBy displacer) daemonFrames frames) :
    receiveFrames frames = (daemonFrames, true) ∧
      ∀ frame ∈ frames, validateLength frame.kind frame.payload.length = true := by
  induction h with
  | nil => exact ⟨rfl, forall_mem_nil _⟩
  | cons hreported _ ih =>
    obtain ⟨event, hreported⟩ := hreported
    obtain ⟨hreceived, hvalid⟩ := ih
    refine ⟨?_, forall_mem_cons.mpr ⟨hreported.valid, hvalid⟩⟩
    obtain ⟨hexited, hdisplaced⟩ := hreported.goesOnToo
    rw [receiveFrames, hreported.received]
    simp only [hexited, hdisplaced, or_self, if_false, hreceived]

theorem carriesEvents_iff (hbincode : Bincode.RoundTrips) (hjson : SyncJson.RoundTrips)
    (hframes : Forall₂ ServerFrame events daemonFrames) (hwithin : ∀ event ∈ events, EventWithin event) :
    CarriesEvents displacer events daemonFrames ↔
      ∀ command payload, encodeRecoverySyncCommand command = .ok payload →
        .recoverySync payload ∈ events → Fits command := by
  constructor
  · rintro ⟨frames, hserved, -, -⟩ command payload hencode hevent
    exact fits_of_serveEvents hbincode hencode hevent (congrArg Prod.snd hserved)
  · intro hfits
    obtain ⟨frames, hserved, hreported⟩ : ∃ frames, serveEvents displacer events = (frames, true) ∧
        Forall₂ (ReportedBy displacer) daemonFrames frames :=
      serveEvents_reported hbincode hjson hframes hwithin hfits
    obtain ⟨hreceived, hvalid⟩ := receiveFrames_reported hreported
    refine ⟨frames, hserved, hvalid, ?_⟩
    have hdrain : drain (readFrame false) (frames.flatMap BridgeFrame.bytes) = (frames, .ok []) :=
      drain_frames fun frame hframe => ⟨hvalid frame hframe, nofun⟩
    rw [clientReceive, hdrain]
    simp only [hreceived]
    rfl

/-- The bridge is transparent exactly if the client adopts the snapshot first and once and the JSON of every recovery
command is no longer than a frame of the bridge may be; how the stream of the client is cut makes no difference. -/
theorem bridge_is_transparent (hbincode : Bincode.RoundTrips) (hjson : SyncJson.RoundTrips) :
    (∀ commands codes chunks, Forall₂ FesTerm.ClientFrame commands codes →
      (∀ command ∈ commands, CommandWithin command) → (chunks.map Chunk.bytes).flatten = codes.flatten →
      (CarriesCommands commands chunks ↔
        Adopts commands ∧ ∀ command, .recoverySync command ∈ commands → Fits command)) ∧
    ∀ displacer events daemonFrames, Forall₂ ServerFrame events daemonFrames →
      (∀ event ∈ events, EventWithin event) →
      (CarriesEvents displacer events daemonFrames ↔
        ∀ command payload, encodeRecoverySyncCommand command = .ok payload →
          .recoverySync payload ∈ events → Fits command) := by
  constructor
  · intro commands codes chunks hcodes hwithin hchunks
    exact carriesCommands_iff hbincode hjson hcodes hwithin hchunks
  · intro displacer events daemonFrames hframes hwithin
    exact carriesEvents_iff hbincode hjson hframes hwithin

end

/-- A client that types and clears the screen, cut within its frames, and what the session answers. -/
theorem bridge_is_transparent_typed :
    letI := Bincode.reference
    letI := SyncJson.reference
    ∃ chunks : List Chunk, 2 ≤ chunks.length ∧
      CarriesCommands [.recoveryAdopted, .input (ascii "ls"), .recoverySync (.mirrorBytes (ascii "ls")),
        .resize ⟨24, 80, 0, 0⟩] chunks ∧
      CarriesEvents .remote [.output (ascii "ls"), .recoverySync [3, 0, 0, 0]]
        [(ClientOutput.data (ascii "ls")).frame, (ClientOutput.recoverySync [3, 0, 0, 0]).frame] := by
  let _ := Bincode.reference
  let _ := SyncJson.reference
  let size : TerminalSize := ⟨80, 24, none, none, by decide, by decide⟩
  have hmirrored : encodeRecoverySyncCommand (.mirrorBytes (ascii "ls")) =
      .ok ([2, 0, 0, 0, 2, 0, 0, 0, 0, 0, 0, 0] ++ ascii "ls") := by
    decide +kernel
  have hreset : encodeRecoverySyncCommand .resetToInitialState = .ok [3, 0, 0, 0] := by decide +kernel
  let stream := encodeFrame frameRecoveryAdopted [] ++ (encodeFrame frameInput (ascii "ls") ++
    (encodeFrame frameRecoverySync ([2, 0, 0, 0, 2, 0, 0, 0, 0, 0, 0, 0] ++ ascii "ls") ++
      (encodeFrame frameResize (encodeResize size) ++ [])))
  have hlength : stream.length ≤ chunkLimit := by decide +kernel
  obtain ⟨hcommands, hevents⟩ := bridge_is_transparent Bincode.reference_roundTrips SyncJson.reference_roundTrips
  refine ⟨[⟨stream.take 12, ?_⟩, ⟨stream.drop 12, ?_⟩], Nat.le_refl 2, ?_, ?_⟩
  · exact (length_take_le' 12 stream).trans hlength
  · exact (drop_sublist 12 stream).length_le.trans hlength
  · apply (hcommands _ _ _ (.cons .recoveryAdopted (.cons (.input _ (by decide)) (.cons (.recoverySync hmirrored)
      (.cons (.resize size) .nil)))) _ _).mpr
    · refine ⟨⟨rfl, by decide⟩, ?_⟩
      intro command hcommand
      have hcommand : command = .mirrorBytes (ascii "ls") := by simpa using hcommand
      subst hcommand
      exact ⟨_, rfl, by decide +kernel⟩
    · intro command hcommand
      simp only [mem_cons, not_mem_nil, or_false] at hcommand
      rcases hcommand with rfl | rfl | rfl | rfl
      · trivial
      · trivial
      · show (Sync.ofCommand _).toCommand = _
        decide +kernel
      · exact ⟨by decide, by decide⟩
    · simp only [map_cons, map_nil, flatten_cons, flatten_nil, append_nil,
        take_append_drop]
      rfl
  · apply (hevents _ _ _ (.cons (.output _ (by decide)) (.cons (.recoverySync hreset) .nil)) _).mpr
    · intro command payload hencode hevent
      have hpayload : payload = [3, 0, 0, 0] := by simpa using hevent
      subst hpayload
      obtain rfl := encode_unique Bincode.reference_roundTrips hreset hencode
      exact ⟨_, rfl, by decide +kernel⟩
    · intro event hevent
      simp only [mem_cons, not_mem_nil, or_false] at hevent
      rcases hevent with rfl | rfl
      · trivial
      · exact ⟨_, hreset, rfl⟩

/-- Forty thousand mirrored bytes fit into a frame of the session and are accepted by the bridge, but their JSON is
too long: the connection ends, whichever end mirrors them. -/
theorem mirrored_bytes_end_connection :
    letI := Bincode.reference
    letI := SyncJson.reference
    ∃ payload, encodeRecoverySyncCommand (.mirrorBytes (List.replicate 40000 0)) = .ok payload ∧
      Accepted (.mirrorBytes (List.replicate 40000 0)) ∧
      ¬ CarriesCommands [.recoveryAdopted, .recoverySync (.mirrorBytes (List.replicate 40000 0))]
        [.ofWrite (encodeFrame frameRecoveryAdopted []), .ofWrite (encodeFrame frameRecoverySync payload)] ∧
      ¬ CarriesEvents .remote [.recoverySync payload] [(ClientOutput.recoverySync payload).frame] := by
  let _ := Bincode.reference
  let _ := SyncJson.reference
  have hdata : (List.replicate 40000 (0 : UInt8)).length = 40000 := length_replicate
  generalize List.replicate 40000 (0 : UInt8) = data at hdata ⊢
  let payload := Bincode.littleEndian 4 2 ++ Bincode.littleEndian 8 data.length ++ data
  have hlength : payload.length = 40012 := by
    simp only [payload, length_append, Bincode.length_littleEndian, hdata]
  have hencode : encodeRecoverySyncCommand (.mirrorBytes data) = .ok payload := by
    have hwritten : Bincode.serialize (.mirrorBytes data) = .ok payload := by
      show Bincode.writeCommand _ = _
      rw [Bincode.writeCommand, if_pos (by rw [hdata, usizeMax]; omega)]
    rw [encodeRecoverySyncCommand, hwritten]
    simp only [hlength, maxFrameBytes]
    rfl
  have haccepted : Accepted (.mirrorBytes data) := by
    rw [Accepted, Sync.ofCommand, Sync.toCommand, if_pos (by rw [hdata, chunkLimit]; omega)]
  have hlong : ¬ Fits (.mirrorBytes data) := by
    rintro ⟨json, hwrite, hfits⟩
    have hjson := SyncJson.length_writeSync_bytes hwrite
    rw [chunkLimit] at hfits
    omega
  refine ⟨payload, hencode, haccepted, fun hcarries => ?_, fun hcarries => ?_⟩
  · have hcodes : Forall₂ FesTerm.ClientFrame [.recoveryAdopted, .recoverySync (.mirrorBytes data)]
        [encodeFrame frameRecoveryAdopted [], encodeFrame frameRecoverySync payload] :=
      .cons .recoveryAdopted (.cons (.recoverySync hencode) .nil)
    have hwithin : ∀ command ∈ [ClientCommand.recoveryAdopted, .recoverySync (.mirrorBytes data)],
        CommandWithin command := by
      simp only [forall_mem_cons]
      exact ⟨trivial, haccepted, forall_mem_nil _⟩
    have hadopted : (encodeFrame frameRecoveryAdopted []).length = frameHeaderBytes + 0 :=
      length_encodeFrameWith length_sendFormat _ _
    have hsync : (encodeFrame frameRecoverySync payload).length = frameHeaderBytes + payload.length :=
      length_encodeFrameWith length_sendFormat _ _
    have hchunks : ([Chunk.ofWrite (encodeFrame frameRecoveryAdopted []),
        Chunk.ofWrite (encodeFrame frameRecoverySync payload)].map Chunk.bytes).flatten =
          [encodeFrame frameRecoveryAdopted [], encodeFrame frameRecoverySync payload].flatten := by
      simp only [map_cons, map_nil, Chunk.ofWrite]
      rw [take_of_length_le, take_of_length_le]
      · rw [hsync, hlength, frameHeaderBytes, chunkLimit]
        omega
      · rw [hadopted, frameHeaderBytes, chunkLimit]
        omega
    obtain ⟨-, hfits⟩ := (carriesCommands_iff Bincode.reference_roundTrips SyncJson.reference_roundTrips hcodes
      hwithin hchunks).mp hcarries
    exact hlong (hfits _ (by simp))
  · have hframes : Forall₂ ServerFrame [.recoverySync payload] [(ClientOutput.recoverySync payload).frame] :=
      .cons (.recoverySync hencode) .nil
    have hwithin : ∀ event ∈ [ServerFrameEvent.recoverySync payload], EventWithin event := by
      simp only [forall_mem_cons]
      exact ⟨⟨_, hencode, haccepted⟩, forall_mem_nil _⟩
    exact hlong ((carriesEvents_iff Bincode.reference_roundTrips SyncJson.reference_roundTrips hframes hwithin).mp
      hcarries _ _ hencode (mem_singleton_self _))

end FesTerm.TunnelBridge
