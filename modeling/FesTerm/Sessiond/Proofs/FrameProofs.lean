import FesTerm.Sessiond.Protocol

/-!
# Framing is exact

Both parsers take frames off the front of the bytes that they hold. `frameTake` is what they have in
common, and it is lawful: a frame is a definite first part of the bytes, and a refusal stays one. What
the parsers yield is then independent of how the bytes are cut into reads, and the buffer limits leave
room for every read.
-/

namespace FesTerm

open Checked Framing List Option

/-! ## The header -/

variable {magic : List UInt8}

/-- What the header of a frame says once it is there. -/
theorem frameHeader_long (format : FrameFormat) {lengths : List UInt8} (kind : UInt8)
    (hmagic : magic.length = 4) (hlengths : lengths.length = 4) (hformat : format.magic.length = 4)
    (tail : List UInt8) :
    frameHeader format (magic ++ kind :: lengths ++ tail) =
      if magic ≠ format.magic then some (.error (invalidData format.invalidMagic))
      else if ofBytes lengths > maxFrameBytes then some (.error (invalidData format.tooLarge))
      else if tail.length < ofBytes lengths then some (.ok none)
      else some (.ok (some (kind, frameHeaderBytes + ofBytes lengths))) := by
  have hlength : (magic ++ kind :: lengths ++ tail).length = frameHeaderBytes + tail.length := by
    simp only [length_append, length_cons, hmagic, hlengths, frameHeaderBytes]
  have hfirst : slice (magic ++ kind :: lengths ++ tail) 0 4 = some magic := by
    rw [slice_eq (Nat.zero_le 4) (by rw [hlength, frameHeaderBytes]; omega), drop_zero,
      append_assoc, take_left' hmagic]
  have hkind : (magic ++ kind :: lengths ++ tail)[4]? = some kind := by
    rw [append_assoc, getElem?_append_right (by omega), hmagic]
    rfl
  have hcount : slice (magic ++ kind :: lengths ++ tail) 5 9 = some lengths := by
    have hsplit : magic ++ kind :: lengths ++ tail = (magic ++ [kind]) ++ (lengths ++ tail) := by simp
    rw [slice_eq (by omega) (by rw [hlength, frameHeaderBytes]; omega), hsplit,
      drop_left' (by simp [hmagic]), take_left' hlengths]
  unfold frameHeader
  rw [if_neg (by rw [hlength]; omega), hformat, hfirst, hkind, hcount]
  simp only [some_bind, hlength]
  split
  · rfl
  · split
    · rfl
    · by_cases htail : tail.length < ofBytes lengths
      · rw [if_pos htail, if_pos (by omega)]
        rfl
      · rw [if_neg htail, if_neg (by omega)]
        rfl

theorem split_header {bytes : List UInt8} (h : frameHeaderBytes ≤ bytes.length) :
    ∃ magic kind lengths tail, bytes = magic ++ kind :: lengths ++ tail ∧ magic.length = 4 ∧
      lengths.length = 4 := by
  rw [frameHeaderBytes] at h
  obtain ⟨kind, hkind⟩ : ∃ kind, bytes[4]? = some kind := ⟨_, getElem?_eq_getElem (by omega)⟩
  refine ⟨bytes.take 4, kind, (bytes.drop 5).take 4, bytes.drop 9, ?_, ?_, ?_⟩
  · have hsplit : bytes.drop 4 = kind :: bytes.drop 5 := by
      rw [drop_eq_getElem_cons (by omega)]
      rw [getElem?_eq_getElem (by omega)] at hkind
      rw [some.inj hkind]
    rw [append_assoc, cons_append, show bytes.drop 9 = (bytes.drop 5).drop 4 by
      rw [drop_drop], take_append_drop, ← hsplit, take_append_drop]
  · rw [length_take]
    omega
  · rw [length_take, length_drop]
    omega

variable {frame payload : List UInt8}

section

variable {β : Type} {format : FrameFormat} {parse : UInt8 → List UInt8 → Option (Except IoError β)}

theorem length_encodeFrameWith (hmagic : magic.length = 4) (kind : UInt8) (payload : List UInt8) :
    (encodeFrameWith magic kind payload).length = frameHeaderBytes + payload.length := by
  simp only [encodeFrameWith, length_append, length_cons, length_toBytes, hmagic, frameHeaderBytes]

theorem maxFrameBytes_lt : maxFrameBytes < 256 ^ 4 := by decide

theorem frameHeader_encode (hformat : format.magic.length = 4) (kind : UInt8)
    (hpayload : payload.length ≤ maxFrameBytes) (rest : List UInt8) :
    frameHeader format (encodeFrameWith format.magic kind payload ++ rest) =
      some (.ok (some (kind, frameHeaderBytes + payload.length))) := by
  have hcount : ofBytes (toBytes 4 payload.length) = payload.length :=
    ofBytes_toBytes (lt_of_le_of_lt hpayload maxFrameBytes_lt)
  rw [encodeFrameWith, append_assoc, frameHeader_long format kind hformat (length_toBytes 4 _) hformat]
  rw [if_neg (by simp), hcount, if_neg (by omega), if_neg (by rw [length_append]; omega)]

/-- What the header says of the bytes. -/
inductive Header (format : FrameFormat) : List UInt8 → Except IoError (Option (UInt8 × Nat)) → Prop
  | short {bytes : List UInt8} (h : bytes.length < frameHeaderBytes) : Header format bytes (.ok none)
  | refused {bytes : List UInt8} {error : IoError}
    (h : ∀ more, frameHeader format (bytes ++ more) = some (.error error)) :
    Header format bytes (.error error)
  | partly {bytes : List UInt8} (h : bytes.length < frameHeaderBytes + maxFrameBytes) :
    Header format bytes (.ok none)
  | complete {kind : UInt8} {payload rest : List UInt8} (h : payload.length ≤ maxFrameBytes) :
    Header format (encodeFrameWith format.magic kind payload ++ rest)
      (.ok (some (kind, frameHeaderBytes + payload.length)))

/-- The header can always be read, and says one of these things. -/
theorem frameHeader_spec (hformat : format.magic.length = 4) (bytes : List UInt8) :
    ∃ result, frameHeader format bytes = some result ∧ Header format bytes result := by
  by_cases hshort : bytes.length < frameHeaderBytes
  · refine ⟨.ok none, ?_, .short hshort⟩
    rw [frameHeader, if_pos hshort]
  obtain ⟨magic, kind, lengths, tail, rfl, hmagic, hlengths⟩ := split_header (Nat.le_of_not_lt hshort)
  have hlong := frameHeader_long format kind hmagic hlengths hformat
  have hrefuse : ∀ {error : IoError},
      (∀ tail, frameHeader format (magic ++ kind :: lengths ++ tail) = some (.error error)) →
      ∃ result, frameHeader format (magic ++ kind :: lengths ++ tail) = some result ∧
        Header format (magic ++ kind :: lengths ++ tail) result := by
    intro error herror
    refine ⟨.error error, herror tail, .refused fun more => ?_⟩
    rw [append_assoc]
    exact herror (tail ++ more)
  by_cases hwrong : magic ≠ format.magic
  · exact hrefuse fun tail => by rw [hlong, if_pos hwrong]
  by_cases hlarge : ofBytes lengths > maxFrameBytes
  · exact hrefuse fun tail => by rw [hlong, if_neg hwrong, if_pos hlarge]
  rw [hlong, if_neg hwrong, if_neg hlarge]
  by_cases htail : tail.length < ofBytes lengths
  · rw [if_pos htail]
    refine ⟨.ok none, rfl, .partly ?_⟩
    simp only [length_append, length_cons, hmagic, hlengths, frameHeaderBytes]
    omega
  · rw [if_neg htail]
    refine ⟨_, rfl, ?_⟩
    -- the bytes are the frame of the payload that they hold
    have hpayload : (tail.take (ofBytes lengths)).length = ofBytes lengths := by
      rw [length_take]
      omega
    have hcount : toBytes 4 (ofBytes lengths) = lengths := by
      rw [← hlengths]
      exact toBytes_ofBytes lengths
    have hframe : magic ++ kind :: lengths ++ tail =
        encodeFrameWith format.magic kind (tail.take (ofBytes lengths)) ++
          tail.drop (ofBytes lengths) := by
      rw [encodeFrameWith, hpayload, hcount, append_assoc _ (tail.take _), take_append_drop]
      rw [not_not.mp hwrong]
    rw [hframe]
    have hcomplete : Header format (encodeFrameWith format.magic kind (tail.take (ofBytes lengths)) ++
        tail.drop (ofBytes lengths))
        (.ok (some (kind, frameHeaderBytes + (tail.take (ofBytes lengths)).length))) :=
      .complete (by omega)
    rwa [hpayload] at hcomplete

/-! ## Frames off the front -/

/-- What the two parsers have in common. -/
def frameTake (format : FrameFormat) (parse : UInt8 → List UInt8 → Option (Except IoError β)) :
    Take UInt8 β IoError := fun bytes =>
  match frameHeader format bytes with
  | some (.error error) => .error error
  | some (.ok (some (kind, frameLen))) =>
    match parse kind ((bytes.take frameLen).drop frameHeaderBytes) with
    | some (.error error) => .error error
    | some (.ok item) => .ok (some (item, bytes.drop frameLen))
    | none => .ok none
  | _ => .ok none

theorem frame_payload (hmagic : magic.length = 4) (kind : UInt8) (payload rest : List UInt8) :
    ((encodeFrameWith magic kind payload ++ rest).take (frameHeaderBytes + payload.length)).drop
        frameHeaderBytes = payload ∧
      (encodeFrameWith magic kind payload ++ rest).drop (frameHeaderBytes + payload.length) = rest := by
  have hlength := length_encodeFrameWith hmagic kind payload
  constructor
  · rw [take_left' hlength, encodeFrameWith, drop_left' (by simp [hmagic, frameHeaderBytes])]
  · exact drop_left' hlength

theorem frame_slices (hmagic : magic.length = 4) (kind : UInt8) (payload rest : List UInt8) :
    slice (encodeFrameWith magic kind payload ++ rest) frameHeaderBytes
        (frameHeaderBytes + payload.length) = some payload ∧
      slice (encodeFrameWith magic kind payload ++ rest) (frameHeaderBytes + payload.length)
        (encodeFrameWith magic kind payload ++ rest).length = some rest := by
  obtain ⟨hbody, hrest⟩ := frame_payload hmagic kind payload rest
  have hlength : (encodeFrameWith magic kind payload ++ rest).length =
      frameHeaderBytes + payload.length + rest.length := by
    rw [length_append, length_encodeFrameWith hmagic]
  constructor
  · rw [slice_eq (by omega) (by omega), Nat.add_sub_cancel_left, ← Nat.add_sub_cancel_left frameHeaderBytes
      payload.length, ← drop_take, hbody]
  · rw [slice_eq (by omega) le_rfl, hrest, take_of_length_le (by omega)]

theorem frameTake_encode (hformat : format.magic.length = 4) {kind : UInt8}
    (hpayload : payload.length ≤ maxFrameBytes) {result : Except IoError β}
    (hparse : parse kind payload = some result) (rest : List UInt8) :
    frameTake format parse (encodeFrameWith format.magic kind payload ++ rest) =
      result.map fun item => some (item, rest) := by
  obtain ⟨hbody, hrest⟩ := frame_payload hformat kind payload rest
  unfold frameTake
  rw [frameHeader_encode hformat kind hpayload]
  simp only [hbody, hparse, hrest]
  cases result with
  | error error | ok item => rfl

def Total (parse : UInt8 → List UInt8 → Option (Except IoError β)) : Prop :=
  ∀ kind payload, ∃ result, parse kind payload = some result

/-- What taking a frame comes to. -/
inductive Taken (format : FrameFormat) (parse : UInt8 → List UInt8 → Option (Except IoError β)) :
    List UInt8 → Except IoError (Option (β × List UInt8)) → Prop
  | waits {bytes : List UInt8} (h : bytes.length < frameHeaderBytes + maxFrameBytes) :
    Taken format parse bytes (.ok none)
  | refused {bytes : List UInt8} {error : IoError}
    (h : ∀ more, frameTake format parse (bytes ++ more) = .error error) :
    Taken format parse bytes (.error error)
  | item {kind : UInt8} {payload rest : List UInt8} {item : β} (hlength : payload.length ≤ maxFrameBytes)
    (hparse : parse kind payload = some (.ok item)) :
    Taken format parse (encodeFrameWith format.magic kind payload ++ rest) (.ok (some (item, rest)))

theorem frameTake_taken (hformat : format.magic.length = 4) (htotal : Total parse) (bytes : List UInt8) :
    Taken format parse bytes (frameTake format parse bytes) := by
  obtain ⟨result, hresult, hheader⟩ := frameHeader_spec hformat bytes
  cases hheader with
  | short hshort =>
    rw [frameTake, hresult]
    exact .waits (by omega)
  | partly hpartly =>
    rw [frameTake, hresult]
    exact .waits hpartly
  | refused hrefused =>
    rw [frameTake, hresult]
    exact .refused fun more => by rw [frameTake, hrefused more]
  | @complete kind payload rest hlength =>
    obtain ⟨parsed, hparse⟩ := htotal kind payload
    rw [frameTake_encode hformat hlength hparse]
    cases parsed with
    | ok item => exact .item hlength hparse
    | error error =>
      refine .refused fun more => ?_
      rw [append_assoc, frameTake_encode hformat hlength hparse]
      rfl

theorem frameTake_lawful (hformat : format.magic.length = 4) (htotal : Total parse) :
    (frameTake format parse).Lawful where
  cut {held item rest} h := by
    have htaken := frameTake_taken hformat htotal held
    rw [h] at htaken
    cases htaken with
    | @item kind payload _ _ hlength hparse =>
      refine ⟨encodeFrameWith format.magic kind payload, ?_, rfl, fun more => ?_⟩
      · rw [← length_pos_iff, length_encodeFrameWith hformat, frameHeaderBytes]
        omega
      · rw [frameTake_encode hformat hlength hparse]
        rfl
  refuse {held error} more h := by
    have htaken := frameTake_taken hformat htotal held
    rw [h] at htaken
    cases htaken with
    | refused hrefused => exact hrefused more

/-! ## The loops after a read -/

/-- A parser that holds `held` takes what `frameTake` takes. -/
structure Follows {π : Type} (take : Take UInt8 β IoError) (bytes : π → List UInt8)
    (next : π → Option (π × Except IoError (Option β))) : Prop where
  step : ∀ parser, ∃ parser' result, next parser = some (parser', result) ∧
    (∀ error, result = .error error → take (bytes parser) = .error error) ∧
    (result = .ok none → parser' = parser ∧ take (bytes parser) = .ok none) ∧
    ∀ item, result = .ok (some item) → take (bytes parser) = .ok (some (item, bytes parser'))

variable {take : Take UInt8 β IoError} {π : Type}

variable {next : π → Option (π × Except IoError (Option β))}

theorem takeAll_eq {bytes : π → List UInt8} (h : Follows take bytes next) (fuel : Nat)
    (parser : π) :
    ∃ items result, takeAll next fuel parser = some (items, result) ∧
      drainWithin take fuel (bytes parser) = (items, result.map bytes) := by
  induction fuel generalizing parser with
  | zero => exact ⟨[], .ok parser, rfl, rfl⟩
  | succ fuel ih =>
    obtain ⟨parser', result, hnext, herror, hwait, hitem⟩ := h.step parser
    unfold takeAll drainWithin
    rw [hnext]
    rcases result with error | _ | item
    · refine ⟨[], .error error, rfl, ?_⟩
      rw [herror error rfl]
      rfl
    · obtain ⟨rfl, htake⟩ := hwait rfl
      refine ⟨[], .ok parser', rfl, ?_⟩
      rw [htake]
      rfl
    · obtain ⟨items, result, hall, hdrain⟩ := ih parser'
      refine ⟨item :: items, result, ?_, ?_⟩
      · simp only [some_bind, hall]
      · rw [hitem item rfl]
        simp only [hdrain]

theorem takeAll_drains {bytes : π → List UInt8} (hlaw : take.Lawful)
    (h : Follows take bytes next) (parser : π) :
    ∃ items result, takeAll next ((bytes parser).length + 1) parser = some (items, result) ∧
      Drains take (bytes parser) items (result.map bytes) := by
  obtain ⟨items, result, hall, hdrain⟩ := takeAll_eq h ((bytes parser).length + 1) parser
  have hdrains := drain_drains hlaw (bytes parser)
  rw [drain, hdrain] at hdrains
  exact ⟨items, result, hall, hdrains⟩

theorem frameTake_room (hformat : format.magic.length = 4) (htotal : Total parse) {bytes : List UInt8}
    (h : frameTake format parse bytes = .ok none) : bytes.length < frameHeaderBytes + maxFrameBytes := by
  have htaken := frameTake_taken hformat htotal bytes
  rw [h] at htaken
  cases htaken with
  | waits hroom => exact hroom

/-- The bytes are the frame of a payload that is parsed to the item. -/
def Framed (format : FrameFormat) (parse : UInt8 → List UInt8 → Option (Except IoError β)) (item : β)
    (frame : List UInt8) : Prop :=
  ∃ kind payload, payload.length ≤ maxFrameBytes ∧ parse kind payload = some (.ok item) ∧
    frame = encodeFrameWith format.magic kind payload

variable {item : β}

theorem Framed.takes (hformat : format.magic.length = 4)
    (h : Framed format parse item frame) (rest : List UInt8) :
    frameTake format parse (frame ++ rest) = .ok (some (item, rest)) := by
  obtain ⟨kind, payload, hlength, hparse, rfl⟩ := h
  rw [frameTake_encode hformat hlength hparse]
  rfl

theorem framed_of_takes (hformat : format.magic.length = 4) (htotal : Total parse)
    (h : ∀ rest, frameTake format parse (frame ++ rest) = .ok (some (item, rest))) :
    Framed format parse item frame := by
  have htaken := frameTake_taken hformat htotal (frame ++ [])
  rw [h [], append_nil] at htaken
  generalize hresult : (Except.ok (some (item, ([] : List UInt8))) : Except IoError _) = result at htaken
  cases htaken with
  | waits | refused => cases hresult
  | @item kind payload rest _ hlength hparse =>
    cases hresult
    exact ⟨kind, payload, hlength, hparse, append_nil _⟩

theorem drains_framed (hformat : format.magic.length = 4) (htotal : Total parse) {bytes : List UInt8}
    {items : List β} {result : Except IoError (List UInt8)}
    (h : Drains (frameTake format parse) bytes items result) :
    ∃ frames rest, bytes = frames.flatten ++ rest ∧ Forall₂ (Framed format parse) items frames ∧
      ∀ left, result = .ok left → left = rest := by
  obtain ⟨parts, rest, hbytes, hparts, hresult⟩ := h.parts (frameTake_lawful hformat htotal)
  exact ⟨parts, rest, hbytes, hparts.flip.imp fun _ _ => framed_of_takes hformat htotal, hresult⟩

end

/-! ## The two parsers -/

theorem readValue_total {offset : Nat} (h : offset + 2 ≤ payload.length) :
    ∃ value, readValue payload offset = some value := by
  unfold readValue
  rw [slice_eq (by omega) h]
  exact ⟨_, rfl⟩

/-- A size that was written is read back field by field. -/
theorem readValue_fields (columns rows pixelWidth pixelHeight : UInt16) :
    (encodeSizeFields columns rows pixelWidth pixelHeight).length = 8 ∧
      readValue (encodeSizeFields columns rows pixelWidth pixelHeight) 0 = some columns ∧
      readValue (encodeSizeFields columns rows pixelWidth pixelHeight) 2 = some rows ∧
      readValue (encodeSizeFields columns rows pixelWidth pixelHeight) 4 = some pixelWidth ∧
      readValue (encodeSizeFields columns rows pixelWidth pixelHeight) 6 = some pixelHeight := by
  have hlength : ∀ value : UInt16, (toBytes 2 value.toNat).length = 2 := fun value => length_toBytes 2 _
  have hvalue : ∀ value : UInt16, UInt16.ofNat (ofBytes (toBytes 2 value.toNat)) = value := fun value => by
    rw [ofBytes_toBytes value.toNat_lt, UInt16.ofNat_toNat]
  have hsplit : encodeSizeFields columns rows pixelWidth pixelHeight =
      toBytes 2 columns.toNat ++ (toBytes 2 rows.toNat ++ (toBytes 2 pixelWidth.toNat ++
        (toBytes 2 pixelHeight.toNat ++ []))) := rfl
  have hall : (encodeSizeFields columns rows pixelWidth pixelHeight).length = 8 := by
    simp only [hsplit, length_append, hlength, length_nil]
  have hread : ∀ (front : List UInt8) {back : List UInt8} {value : UInt16},
      encodeSizeFields columns rows pixelWidth pixelHeight = front ++ (toBytes 2 value.toNat ++ back) →
      readValue (encodeSizeFields columns rows pixelWidth pixelHeight) front.length = some value := by
    intro front back value heq
    have hle := congrArg List.length heq
    rw [hall, length_append, length_append, hlength] at hle
    unfold readValue
    rw [slice_eq (by omega) (by omega), heq, drop_left, Nat.add_sub_cancel_left,
      take_left' (hlength value)]
    exact congrArg some (hvalue value)
  refine ⟨hall, ?_, ?_, ?_, ?_⟩
  · exact hread [] hsplit
  · exact hread (toBytes 2 columns.toNat) hsplit
  · exact hread (toBytes 2 columns.toNat ++ toBytes 2 rows.toNat)
      (by rw [hsplit, append_assoc])
  · exact hread (toBytes 2 columns.toNat ++ toBytes 2 rows.toNat ++ toBytes 2 pixelWidth.toNat)
      (by rw [hsplit, append_assoc, append_assoc])

namespace ClientFrameParser

theorem length_magic : format.magic.length = 4 := by decide +kernel

theorem parseResizeFrame_total (payload : List UInt8) : ∃ result, parseResizeFrame payload = some result := by
  unfold parseResizeFrame
  by_cases hlength : payload.length ≠ 8
  · exact ⟨_, if_pos hlength⟩
  · obtain ⟨cols, hcols⟩ := readValue_total (show 0 + 2 ≤ payload.length by omega)
    obtain ⟨rows, hrows⟩ := readValue_total (show 2 + 2 ≤ payload.length by omega)
    obtain ⟨width, hwidth⟩ := readValue_total (show 4 + 2 ≤ payload.length by omega)
    obtain ⟨height, hheight⟩ := readValue_total (show 6 + 2 ≤ payload.length by omega)
    rw [if_neg hlength, hcols, hrows, hwidth, hheight]
    simp only [some_bind]
    split
    · exact ⟨_, rfl⟩
    · exact ⟨_, rfl⟩

variable [Bincode]

theorem parseCommand_total : Total parseCommand := by
  intro kind payload
  unfold parseCommand
  split
  · exact ⟨_, rfl⟩
  · split
    · obtain ⟨result, hresult⟩ := parseResizeFrame_total payload
      rw [hresult]
      exact ⟨_, rfl⟩
    · split
      · split
        · exact ⟨_, rfl⟩
        · exact ⟨_, rfl⟩
      · split
        · exact ⟨_, rfl⟩
        · exact ⟨_, rfl⟩

theorem take_lawful : (frameTake format parseCommand).Lawful :=
  frameTake_lawful length_magic parseCommand_total

theorem nextCommand_follows :
    Follows (frameTake format parseCommand) ClientFrameParser.bytes nextCommand := by
  constructor
  rintro ⟨held⟩
  obtain ⟨result, hresult, hheader⟩ := frameHeader_spec length_magic held
  unfold nextCommand
  rw [hresult]
  cases hheader with
  | short hshort | partly hpartly =>
    exact ⟨_, _, rfl, nofun, fun _ => ⟨rfl, by rw [frameTake, hresult]⟩, nofun⟩
  | refused hrefused =>
    refine ⟨_, _, rfl, fun error herror => ?_, nofun, nofun⟩
    cases herror
    rw [frameTake, hresult]
  | @complete kind payload rest hlength =>
    obtain ⟨parsed, hparse⟩ := parseCommand_total kind payload
    obtain ⟨hslice, hleft⟩ := frame_slices length_magic kind payload rest
    have htake := frameTake_encode length_magic hlength hparse rest
    simp only [bind_eq_bind, bind_some, hslice, hparse]
    rcases parsed with error | item
    · refine ⟨_, _, rfl, fun other hother => ?_, nofun, nofun⟩
      cases hother
      exact htake
    · simp only [hleft, bind_some]
      refine ⟨_, _, rfl, nofun, nofun, fun other hother => ?_⟩
      cases hother
      exact htake

theorem nextCommand_error {parser parser' : ClientFrameParser} {error : IoError}
    (h : parser.nextCommand = some (parser', .error error)) : parser' = parser := by
  rcases parser with ⟨held⟩
  obtain ⟨result, hresult, hheader⟩ := frameHeader_spec length_magic held
  unfold nextCommand at h
  rw [hresult] at h
  cases hheader with
  | short hshort | partly hpartly => cases h
  | refused hrefused =>
    cases h
    rfl
  | @complete kind payload rest hlength =>
    obtain ⟨parsed, hparse⟩ := parseCommand_total kind payload
    obtain ⟨hslice, hleft⟩ := frame_slices length_magic kind payload rest
    simp only [bind_eq_bind, bind_some, hslice, hparse] at h
    rcases parsed with error' | item
    · cases h
      rfl
    · simp only [hleft, bind_some] at h
      cases h

variable {bytes rest : List UInt8} {commands parsed : List ClientCommand}
  {frames : List (List UInt8)} {parser : ClientFrameParser}

theorem feed_drains (held chunk : List UInt8)
    (h : held.length + chunk.length ≤ maxFrameBytes + frameHeaderBytes) :
    ∃ more result, feed ⟨held⟩ chunk = some (more, result) ∧
      Drains (frameTake format parseCommand) (held ++ chunk) more (result.map ClientFrameParser.bytes) := by
  unfold feed push
  rw [if_neg (by simp only; omega)]
  exact takeAll_drains take_lawful nextCommand_follows ⟨held ++ chunk⟩

theorem Reads.drains (h : Reads bytes parsed parser) :
    Drains (frameTake format parseCommand) bytes parsed (.ok parser.bytes) := by
  induction h with
  | start => exact .waits (by rw [frameTake, frameHeader, if_pos (by decide)])
  | @read bytes chunk commands more limit parser parser' _ hlimit hchunk hfeed ih =>
    have hroom := frameTake_room length_magic parseCommand_total ih.waiting
    obtain ⟨capacity, hcapacity, hlimit⟩ := bind_eq_some_iff.mp hlimit
    obtain ⟨-, rfl⟩ := sub_eq_some.mp hcapacity
    cases hlimit
    obtain ⟨more', result, hfeed', hdrains⟩ :=
      feed_drains parser.bytes chunk (by omega)
    cases hfeed'.symm.trans hfeed
    exact ih.append take_lawful hdrains

theorem reads_are_framed (h : Reads bytes parsed parser) :
    ∃ limit, parser.readLimit = some limit ∧ 0 < limit ∧
      ∀ chunk : List UInt8, chunk.length ≤ limit →
        ∃ more result, parser.feed chunk = some (more, result) ∧
          ∃ frames rest, bytes ++ chunk = frames.flatten ++ rest ∧
            Forall₂ (Framed format parseCommand) (parsed ++ more) frames ∧
            ∀ parser', result = .ok parser' → parser'.bytes = rest := by
  have hdrains := h.drains
  have hroom := frameTake_room length_magic parseCommand_total hdrains.waiting
  have hlimit : parser.readLimit =
      some (min readBufferBytes (maxFrameBytes + frameHeaderBytes - parser.bytes.length)) := by
    rw [readLimit, remainingCapacity, sub_eq (by omega)]
    rfl
  refine ⟨_, hlimit, ?_, fun chunk hchunk => ?_⟩
  · rw [readBufferBytes]
    omega
  · obtain ⟨more, result, hfeed, hmore⟩ :=
      feed_drains parser.bytes chunk (by omega)
    obtain ⟨frames, rest, hbytes, hframed, hleft⟩ :=
      drains_framed length_magic parseCommand_total (hdrains.append take_lawful hmore)
    refine ⟨more, result, hfeed, frames, rest, hbytes, hframed, fun parser' hresult => ?_⟩
    subst hresult
    exact hleft _ rfl

/-- A frame that the client writes is parsed to its command. -/
theorem framed_of_frame (h : Bincode.RoundTrips) {command : ClientCommand}
    (hframe : ClientFrame command frame) : Framed format parseCommand command frame := by
  cases hframe with
  | input data hdata => exact ⟨frameInput, data, hdata, rfl, rfl⟩
  | resize size =>
    obtain ⟨hlength, hcols, hrows, hwidth, hheight⟩ := readValue_fields size.columns size.rows
      (size.pixelWidth.getD 0) (size.pixelHeight.getD 0)
    refine ⟨frameResize, encodeResize size, ?_, ?_, rfl⟩
    · rw [encodeResize, hlength]
      decide
    · have hcolumns := size.two_le_columns
      have hone := size.one_le_rows
      rw [parseCommand, if_neg (by decide), if_pos rfl, parseResizeFrame, encodeResize,
        if_neg (by omega), hcols, hrows, hwidth, hheight]
      simp only [some_bind]
      rw [if_neg]
      · rfl
      · rintro (hsmall | hzero)
        · exact absurd hcolumns (UInt16.not_le.mpr hsmall)
        · rw [hzero] at hone
          exact absurd hone (by decide)
  | @recoverySync command payload hencode =>
    unfold encodeRecoverySyncCommand at hencode
    split at hencode
    · cases hencode
    · next written hserialize =>
      split at hencode
      · cases hencode
      · next hlength =>
        obtain rfl := Except.ok.inj hencode
        refine ⟨frameRecoverySync, written, by omega, ?_, rfl⟩
        rw [parseCommand, if_neg (by decide), if_neg (by decide), if_pos rfl, h command written hserialize]
  | recoveryAdopted => exact ⟨frameRecoveryAdopted, [], Nat.zero_le _, rfl, rfl⟩

/-- Whatever the reads are, the commands of a stream come back one after another, and all of them with
nothing left once the stream is read. -/
theorem commands_read_back (h : Bincode.RoundTrips) (hframes : Forall₂ ClientFrame commands frames)
    (hreads : Reads bytes parsed parser) (hstream : bytes ++ rest = frames.flatten) :
    parsed <+: commands ∧ (rest = [] → parsed = commands ∧ parser = default) ∧
      ∀ limit chunk, parser.readLimit = some limit → chunk.length ≤ limit → chunk <+: rest →
        ∃ more parser', parser.feed chunk = some (more, .ok parser') := by
  have hempty : frameTake format parseCommand [] = .ok none := by
    rw [frameTake, frameHeader, if_pos (by decide)]
  have hall : Drains (frameTake format parseCommand) (bytes ++ rest) commands (.ok []) := by
    rw [hstream]
    exact drains_codes hempty
      (hframes.imp fun _ _ hframe more => (framed_of_frame h hframe).takes length_magic more)
  have hdrains := hreads.drains
  obtain ⟨others, rfl, hothers⟩ := hdrains.of_prefix take_lawful hall
  refine ⟨prefix_append parsed others, fun hrest => ?_, fun limit chunk hlimit hchunk hbegins => ?_⟩
  · rw [hrest, append_nil] at hothers
    obtain ⟨hnil, hheld⟩ := (Drains.waits hdrains.waiting).unique hothers
    obtain ⟨held⟩ := parser
    cases hheld
    rw [← hnil, append_nil]
    exact ⟨rfl, rfl⟩
  · obtain ⟨after, rfl⟩ := hbegins
    obtain ⟨limit', hlimit', -, hfits⟩ := reads_are_framed hreads
    cases hlimit.symm.trans hlimit'
    obtain ⟨more, result, hfeed, -⟩ := hfits chunk hchunk
    have hroom := frameTake_room length_magic parseCommand_total hdrains.waiting
    have hcapacity : chunk.length ≤ maxFrameBytes + frameHeaderBytes - parser.bytes.length := by
      rw [readLimit, remainingCapacity, sub_eq (by omega)] at hlimit
      have := some.inj hlimit
      omega
    obtain ⟨more', result', hfeed', hmore⟩ := feed_drains parser.bytes chunk (by omega)
    cases hfeed.symm.trans hfeed'
    rw [← append_assoc] at hothers
    obtain ⟨left, hleft⟩ := hmore.ok_of_prefix take_lawful hothers
    rcases result with error | parser'
    · cases hleft
    · exact ⟨more, parser', hfeed⟩

end ClientFrameParser

namespace ServerFrameParser

theorem length_magic : format.magic.length = 4 := by decide +kernel

theorem parseResizePayload_total (payload : List UInt8) :
    ∃ result, parseResizePayload payload = some result := by
  unfold parseResizePayload
  by_cases hlength : payload.length ≠ 8
  · exact ⟨_, if_pos hlength⟩
  · obtain ⟨columns, hcolumns⟩ := readValue_total (show 0 + 2 ≤ payload.length by omega)
    obtain ⟨rows, hrows⟩ := readValue_total (show 2 + 2 ≤ payload.length by omega)
    obtain ⟨width, hwidth⟩ := readValue_total (show 4 + 2 ≤ payload.length by omega)
    obtain ⟨height, hheight⟩ := readValue_total (show 6 + 2 ≤ payload.length by omega)
    rw [if_neg hlength, hcolumns, hrows, hwidth, hheight]
    simp only [some_bind]
    split
    · exact ⟨_, rfl⟩
    · exact ⟨_, rfl⟩

variable [Bincode]

theorem parseEvent_total : Total parseEvent := by
  intro kind payload
  unfold parseEvent
  split
  · exact ⟨_, rfl⟩
  · split
    · split
      · exact ⟨_, rfl⟩
      · exact ⟨_, rfl⟩
    · split
      · exact ⟨_, rfl⟩
      · split
        · exact ⟨_, rfl⟩
        · split
          · obtain ⟨result, hresult⟩ := parseResizePayload_total payload
            rw [hresult]
            exact ⟨_, rfl⟩
          · exact ⟨_, rfl⟩

theorem take_lawful : (frameTake format parseEvent).Lawful := frameTake_lawful length_magic parseEvent_total

theorem nextEvent_follows : Follows (frameTake format parseEvent) ServerFrameParser.bytes nextEvent := by
  constructor
  rintro ⟨held⟩
  obtain ⟨result, hresult, hheader⟩ := frameHeader_spec length_magic held
  unfold nextEvent
  rw [hresult]
  cases hheader with
  | short hshort | partly hpartly =>
    exact ⟨_, _, rfl, nofun, fun _ => ⟨rfl, by rw [frameTake, hresult]⟩, nofun⟩
  | refused hrefused =>
    refine ⟨_, _, rfl, fun error herror => ?_, nofun, nofun⟩
    cases herror
    rw [frameTake, hresult]
  | @complete kind payload rest hlength =>
    obtain ⟨parsed, hparse⟩ := parseEvent_total kind payload
    obtain ⟨hslice, hleft⟩ := frame_slices length_magic kind payload rest
    have htake := frameTake_encode length_magic hlength hparse rest
    simp only [some_bind, hslice, hleft, hparse]
    rcases parsed with error | item
    · refine ⟨_, _, rfl, fun other hother => ?_, nofun, nofun⟩
      cases hother
      exact htake
    · refine ⟨_, _, rfl, nofun, nofun, fun other hother => ?_⟩
      cases hother
      exact htake

variable {bytes rest : List UInt8} {events parsed : List ServerFrameEvent}
  {frames : List (List UInt8)} {parser : ServerFrameParser}

theorem feed_drains (held chunk : List UInt8)
    (h : held.length + chunk.length ≤ 2 * (maxFrameBytes + frameHeaderBytes)) :
    ∃ more result, feed ⟨held⟩ chunk = some (more, result) ∧
      Drains (frameTake format parseEvent) (held ++ chunk) more (result.map ServerFrameParser.bytes) := by
  unfold feed push
  rw [if_neg (by simp only; omega)]
  exact takeAll_drains take_lawful nextEvent_follows ⟨held ++ chunk⟩

variable {chunk : List UInt8}

theorem room_for_read {held : List UInt8} (hwait : frameTake format parseEvent held = .ok none)
    (hchunk : chunk.length ≤ readBufferBytes) :
    held.length + chunk.length ≤ 2 * (maxFrameBytes + frameHeaderBytes) := by
  have hroom := frameTake_room length_magic parseEvent_total hwait
  rw [readBufferBytes] at hchunk
  rw [maxFrameBytes, frameHeaderBytes] at hroom ⊢
  omega

theorem Reads.drains (h : Reads bytes parsed parser) :
    Drains (frameTake format parseEvent) bytes parsed (.ok parser.bytes) := by
  induction h with
  | start => exact .waits (by rw [frameTake, frameHeader, if_pos (by decide)])
  | @read bytes chunk events more parser parser' _ hchunk hfeed ih =>
    obtain ⟨more', result, hfeed', hdrains⟩ :=
      feed_drains parser.bytes chunk (room_for_read ih.waiting hchunk)
    cases hfeed'.symm.trans hfeed
    exact ih.append take_lawful hdrains

theorem reads_are_framed (h : Reads bytes parsed parser)
    (hchunk : chunk.length ≤ readBufferBytes) :
    ∃ more result, parser.feed chunk = some (more, result) ∧
      ∃ frames rest, bytes ++ chunk = frames.flatten ++ rest ∧
        Forall₂ (Framed format parseEvent) (parsed ++ more) frames ∧
        ∀ parser', result = .ok parser' → parser'.bytes = rest := by
  have hdrains := h.drains
  obtain ⟨more, result, hfeed, hmore⟩ :=
    feed_drains parser.bytes chunk (room_for_read hdrains.waiting hchunk)
  obtain ⟨frames, rest, hbytes, hframed, hleft⟩ :=
    drains_framed length_magic parseEvent_total (hdrains.append take_lawful hmore)
  refine ⟨more, result, hfeed, frames, rest, hbytes, hframed, fun parser' hresult => ?_⟩
  subst hresult
  exact hleft _ rfl

theorem framed_of_frame (h : Bincode.RoundTrips) {event : ServerFrameEvent}
    (hframe : ServerFrame event frame) : Framed format parseEvent event frame := by
  cases hframe with
  | output bytes hbytes => exact ⟨serverFrameOutput, bytes, hbytes, rfl, rfl⟩
  | @recoverySync command payload hencode =>
    unfold encodeRecoverySyncCommand at hencode
    split at hencode
    · cases hencode
    · next written hserialize =>
      split at hencode
      · cases hencode
      · next hlength =>
        obtain rfl := Except.ok.inj hencode
        refine ⟨serverFrameRecoverySync, written, by omega, ?_, rfl⟩
        rw [parseEvent, if_neg (by decide), if_pos rfl, decodeRecoverySyncCommand,
          h command written hserialize]
  | @resizeApplied size applied hsize =>
    obtain ⟨hlength, hcols, hrows, hwidth, hheight⟩ := readValue_fields size.cols size.rows
      size.pixelWidth size.pixelHeight
    refine ⟨serverFrameResizeApplied, _, ?_, ?_, rfl⟩
    · rw [hlength]
      decide
    · rw [parseEvent, if_neg (by decide), if_neg (by decide), if_neg (by rintro ⟨hkind, -⟩; cases hkind),
        if_neg (by rintro ⟨hkind, -⟩; cases hkind), if_pos rfl, parseResizePayload, if_neg (by omega),
        hcols, hrows, hwidth, hheight]
      simp only [some_bind, hsize]
      rfl
  | stolen => exact ⟨serverFrameStolen, [], Nat.zero_le _, rfl, rfl⟩
  | exited => exact ⟨serverFrameExited, [], Nat.zero_le _, rfl, rfl⟩

theorem events_read_back (h : Bincode.RoundTrips) (hframes : Forall₂ ServerFrame events frames)
    (hreads : Reads bytes parsed parser) (hstream : bytes ++ rest = frames.flatten) :
    parsed <+: events ∧ (rest = [] → parsed = events ∧ parser.close = .ok ()) ∧
      ∀ chunk, chunk.length ≤ readBufferBytes → chunk <+: rest →
        ∃ more parser', parser.feed chunk = some (more, .ok parser') := by
  have hempty : frameTake format parseEvent [] = .ok none := by
    rw [frameTake, frameHeader, if_pos (by decide)]
  have hall : Drains (frameTake format parseEvent) (bytes ++ rest) events (.ok []) := by
    rw [hstream]
    exact drains_codes hempty
      (hframes.imp fun _ _ hframe more => (framed_of_frame h hframe).takes length_magic more)
  have hdrains := hreads.drains
  obtain ⟨others, rfl, hothers⟩ := hdrains.of_prefix take_lawful hall
  refine ⟨prefix_append parsed others, fun hrest => ?_, fun chunk hchunk hbegins => ?_⟩
  · rw [hrest, append_nil] at hothers
    obtain ⟨hnil, hheld⟩ := (Drains.waits hdrains.waiting).unique hothers
    rw [← hnil, append_nil, close, Except.ok.inj hheld]
    exact ⟨rfl, rfl⟩
  · obtain ⟨after, rfl⟩ := hbegins
    obtain ⟨more, result, hfeed, hmore⟩ :=
      feed_drains parser.bytes chunk (room_for_read hdrains.waiting hchunk)
    rw [← append_assoc] at hothers
    obtain ⟨left, hleft⟩ := hmore.ok_of_prefix take_lawful hothers
    rcases result with error | parser'
    · cases hleft
    · exact ⟨more, parser', hfeed⟩

end ServerFrameParser

/-- Session framing is exact in both directions. The frames of any commands or events, cut into any
reads, are parsed back to exactly these with no bytes pending, and no read of such a stream is refused.
On any other bytes a read always finds room, never fails to index, and yields only what was framed. -/
theorem framing_is_exact [Bincode] (h : Bincode.RoundTrips) :
    (∀ commands frames bytes rest parsed parser, Forall₂ ClientFrame commands frames →
      ClientFrameParser.Reads bytes parsed parser → bytes ++ rest = frames.flatten →
      parsed <+: commands ∧ (rest = [] → parsed = commands ∧ parser.bytes = []) ∧
        ∀ limit chunk, parser.readLimit = some limit → chunk.length ≤ limit → chunk <+: rest →
          ∃ more parser', parser.feed chunk = some (more, .ok parser')) ∧
    (∀ bytes parsed parser, ClientFrameParser.Reads bytes parsed parser →
      ∃ limit, parser.readLimit = some limit ∧ 0 < limit ∧
        ∀ chunk : List UInt8, chunk.length ≤ limit →
          ∃ more result, parser.feed chunk = some (more, result) ∧
            ∃ frames rest, bytes ++ chunk = frames.flatten ++ rest ∧
              Forall₂ (Framed ClientFrameParser.format ClientFrameParser.parseCommand)
                (parsed ++ more) frames ∧
              ∀ parser', result = .ok parser' → parser'.bytes = rest) ∧
    (∀ events frames bytes rest parsed parser, Forall₂ ServerFrame events frames →
      ServerFrameParser.Reads bytes parsed parser → bytes ++ rest = frames.flatten →
      parsed <+: events ∧ (rest = [] → parsed = events ∧ parser.close = .ok ()) ∧
        ∀ chunk, chunk.length ≤ readBufferBytes → chunk <+: rest →
          ∃ more parser', parser.feed chunk = some (more, .ok parser')) ∧
    ∀ bytes parsed parser, ServerFrameParser.Reads bytes parsed parser →
      ∀ chunk : List UInt8, chunk.length ≤ readBufferBytes →
        ∃ more result, parser.feed chunk = some (more, result) ∧
          ∃ frames rest, bytes ++ chunk = frames.flatten ++ rest ∧
            Forall₂ (Framed ServerFrameParser.format ServerFrameParser.parseEvent)
              (parsed ++ more) frames ∧
            ∀ parser', result = .ok parser' → parser'.bytes = rest := by
  refine ⟨?_, ?_, ?_, ?_⟩
  · intro commands frames bytes rest parsed parser hframes hreads hstream
    obtain ⟨hbegins, hall, hfeed⟩ := ClientFrameParser.commands_read_back h hframes hreads hstream
    refine ⟨hbegins, fun hrest => ?_, hfeed⟩
    obtain ⟨hparsed, hparser⟩ := hall hrest
    exact ⟨hparsed, by rw [hparser]; rfl⟩
  · intro bytes parsed parser hreads
    exact ClientFrameParser.reads_are_framed hreads
  · intro events frames bytes rest parsed parser hframes hreads hstream
    exact ServerFrameParser.events_read_back h hframes hreads hstream
  · intro bytes parsed parser hreads chunk hchunk
    exact ServerFrameParser.reads_are_framed hreads hchunk

/-- A keystroke and a size without pixels, read at once. -/
theorem framing_is_exact_typed :
    letI := Bincode.reference
    ∃ parser, ClientFrameParser.Reads
      (encodeFrame frameInput (ascii "ls") ++ encodeFrame frameResize (encodeSizeFields 80 24 0 0))
      [.input (ascii "ls"), .resize ⟨24, 80, 0, 0⟩] parser ∧ parser.bytes = [] := by
  let _ := Bincode.reference
  let size : TerminalSize := ⟨80, 24, none, none, by decide, by decide⟩
  have hframes : Forall₂ ClientFrame [.input (ascii "ls"), .resize ⟨24, 80, 0, 0⟩]
      [encodeFrame frameInput (ascii "ls"), encodeFrame frameResize (encodeSizeFields 80 24 0 0)] :=
    .cons (.input _ (by decide)) (.cons (.resize size) .nil)
  let chunk := encodeFrame frameInput (ascii "ls") ++ encodeFrame frameResize (encodeSizeFields 80 24 0 0)
  obtain ⟨hexact, -⟩ := framing_is_exact Bincode.reference_roundTrips
  obtain ⟨-, -, hfeed⟩ := hexact _ _ [] chunk [] .default hframes .start (by decide +kernel)
  have hlimit : ClientFrameParser.default.readLimit = some readBufferBytes := by decide +kernel
  have hchunk : chunk.length ≤ readBufferBytes := by decide +kernel
  obtain ⟨more, parser, hfed⟩ := hfeed readBufferBytes chunk hlimit hchunk (prefix_refl _)
  have hreads := ClientFrameParser.Reads.read .start hlimit hchunk hfed
  obtain ⟨-, hall, -⟩ := hexact _ _ _ [] _ _ hframes hreads (by decide +kernel)
  obtain ⟨hparsed, hbytes⟩ := hall rfl
  rw [hparsed] at hreads
  exact ⟨parser, hreads, hbytes⟩

end FesTerm
