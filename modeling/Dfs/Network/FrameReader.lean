import Dfs.Lib.Framing
import Dfs.Network.FrameIO

/-!
# Reading frames from a socket (`FrameIO.cpp`)

The two ways to read are the same function of the bytes that come: `read_frame` blocks until it has a whole frame or the
stream has ended, and `async_read_frame` keeps what has come of a header or of a payload until it is complete.
-/

namespace Dfs

open Lib

/-- `sizeof(std::uint8_t) + sizeof(std::uint32_t) + sizeof(MessageType)` -/
def messageHeaderSize : Nat := 1 + 4 + 1

def decodeHeader (bytes : Bytes) : Except Exn MessageHeader := do
  let (magic, reader) ← (BinaryReader.start bytes).read UInt8
  let (payloadSize, reader) ← reader.read UInt32
  let (messageType, _) ← reader.read MessageType
  if magic ≠ headerMagic then .error .runtimeError
  else if payloadSize.toNat > maxMessageSize then .error .runtimeError
  else .ok { magic, length := payloadSize, type := messageType }

/-- Why there is no frame: `asio::read` has met the end of the stream, or `decode_header` has thrown. -/
inductive ReadError where
  | endOfFile
  | exception (e : Exn)
  deriving DecidableEq

/-- `read_frame` where the socket has `stream` and then nothing more; what is left of it comes second. -/
def readFrame (stream : Bytes) : Except ReadError (Frame × Bytes) :=
  if stream.length < messageHeaderSize then .error .endOfFile
  else
    match decodeHeader (stream.take messageHeaderSize) with
    | .error e => .error (.exception e)
    | .ok header =>
        let stream := stream.drop messageHeaderSize
        if stream.length < header.length.toNat then .error .endOfFile
        else .ok ({ header, buffer := stream.take header.length.toNat }, stream.drop header.length.toNat)

/-! ## One header -/

/-- A header of this kind is refused. -/
def RefusedHeader (magic : UInt8) (length : UInt32) : Prop := magic ≠ headerMagic ∨ length.toNat > maxMessageSize

instance (magic : UInt8) (length : UInt32) : Decidable (RefusedHeader magic length) := inferInstanceAs (Decidable (_ ∨ _))

def headerBytes (magic : UInt8) (length : UInt32) (type : MessageType) : Bytes := write magic ++ (write length ++ write type)

@[simp] theorem headerBytes_length (magic : UInt8) (length : UInt32) (type : MessageType) :
    (headerBytes magic length type).length = messageHeaderSize := by
  simp [headerBytes, write, messageHeaderSize]

theorem decodeHeader_eq (magic : UInt8) (length : UInt32) (type : MessageType) :
    decodeHeader (headerBytes magic length type) =
      if RefusedHeader magic length then .error .runtimeError else .ok { magic, length, type } := by
  obtain ⟨r₁, read₁, h₁⟩ := BinaryReader.read_start magic (write length ++ write type) trivial
  obtain ⟨r₂, read₂, h₂⟩ := LawfulSerial.read_write length r₁ (write type) trivial h₁
  obtain ⟨r₃, read₃, -⟩ := LawfulSerial.read_write type r₂ [] trivial (by rwa [List.append_nil])
  simp only [decodeHeader, headerBytes, read₁, read₂, read₃, bind, Except.bind]
  by_cases wrong : magic ≠ headerMagic
  · rw [if_pos wrong, if_pos (.inl wrong)]
  · rw [if_neg wrong]
    by_cases long : length.toNat > maxMessageSize
    · rw [if_pos long, if_pos (.inr long)]
    · have taken : ¬ RefusedHeader magic length := not_or.2 ⟨wrong, long⟩
      rw [if_neg long, if_neg taken]

/-- Six bytes are a header, whatever they are. -/
theorem header_of_length {bytes : Bytes} (size : bytes.length = messageHeaderSize) :
    ∃ magic length type, bytes = headerBytes magic length type := by
  obtain ⟨b, rest, rfl⟩ : ∃ b rest, bytes = b :: rest := by
    cases bytes with
    | nil => cases size
    | cons b rest => exact ⟨b, rest, rfl⟩
  have rest_length : rest.length = 4 + 1 := by simpa [messageHeaderSize] using size
  obtain ⟨t, last⟩ : ∃ t, rest.drop 4 = [t] := List.length_eq_one_iff.1 (by rw [List.length_drop]; omega)
  have four : (rest.take 4).length = 4 := by rw [List.length_take]; omega
  refine ⟨b, .ofNat (ofBytes (rest.take 4)), WireEnum.ofByte t, ?_⟩
  have bound := ofBytes_lt (rest.take 4)
  rw [four] at bound
  have word : write (UInt32.ofNat (ofBytes (rest.take 4))) = rest.take 4 := by
    have back := toBytes_ofBytes (rest.take 4)
    rw [four] at back
    simp only [write, UInt32.toNat_ofNat']
    rw [Nat.mod_eq_of_lt (by simpa using bound), back]
  have byte : write (WireEnum.ofByte t : MessageType) = [t] := by
    simp [write, WireEnum.toByte_ofByte, toBytes]
  have first : write b = [b] := by simp [write, toBytes]
  rw [headerBytes, word, byte, first, ← last, List.take_append_drop]
  rfl

/-- A stream is too short for a header or starts with one. -/
theorem header_or_short (stream : Bytes) : stream.length < messageHeaderSize ∨
    ∃ magic length type rest, stream = headerBytes magic length type ++ rest := by
  by_cases short : stream.length < messageHeaderSize
  · exact .inl short
  have size : (stream.take messageHeaderSize).length = messageHeaderSize := by
    rw [List.length_take]
    omega
  obtain ⟨magic, length, type, header⟩ := header_of_length size
  exact .inr ⟨magic, length, type, stream.drop messageHeaderSize, by rw [← header, List.take_append_drop]⟩

theorem readFrame_short {stream : Bytes} (short : stream.length < messageHeaderSize) :
    readFrame stream = .error .endOfFile := by
  rw [readFrame, if_pos short]

theorem readFrame_header (magic : UInt8) (length : UInt32) (type : MessageType) (rest : Bytes) :
    readFrame (headerBytes magic length type ++ rest) =
      if RefusedHeader magic length then .error (.exception .runtimeError)
      else if rest.length < length.toNat then .error .endOfFile
      else .ok ({ header := { magic, length, type }, buffer := rest.take length.toNat }, rest.drop length.toNat) := by
  have header : (headerBytes magic length type ++ rest).take messageHeaderSize = headerBytes magic length type :=
    List.take_left' (headerBytes_length magic length type)
  have behind : (headerBytes magic length type ++ rest).drop messageHeaderSize = rest :=
    List.drop_left' (headerBytes_length magic length type)
  have long : ¬ (headerBytes magic length type ++ rest).length < messageHeaderSize := by
    rw [List.length_append, headerBytes_length]
    omega
  rw [readFrame, if_neg long, header, behind, decodeHeader_eq]
  by_cases refused : RefusedHeader magic length
  · simp only [if_pos refused]
  · simp only [if_neg refused]

/-! ## Many frames -/

/-- The frame as it is received: its header says what its sender's did not have to say. -/
def Frame.received (frame : Frame) : Frame :=
  { frame with header := { magic := headerMagic, length := .ofNat frame.buffer.length, type := frame.header.type } }

/-- A header that says what it has to. -/
structure Frame.Regular (frame : Frame) : Prop where
  magic : frame.header.magic = headerMagic
  length : frame.header.length.toNat = frame.buffer.length
  fits : frame.buffer.length ≤ maxMessageSize

theorem length_toNat {n : Nat} (fits : n ≤ maxMessageSize) : (UInt32.ofNat n).toNat = n := by
  rw [UInt32.toNat_ofNat', Nat.mod_eq_of_lt]
  rw [maxMessageSize] at fits
  omega

theorem Frame.received_regular {frame : Frame} (fits : frame.buffer.length ≤ maxMessageSize) : frame.received.Regular :=
  ⟨rfl, length_toNat fits, fits⟩

theorem Frame.Regular.received {frame : Frame} (regular : frame.Regular) : frame.received = frame := by
  obtain ⟨⟨magic, length, type⟩, buffer⟩ := frame
  obtain ⟨rfl, same, fits⟩ := regular
  have length_eq : UInt32.ofNat buffer.length = length := by
    rw [← same, UInt32.ofNat_toNat]
  simp only [Frame.received, length_eq]

theorem frameBytes_eq {frame : Frame} (fits : frame.buffer.length ≤ maxMessageSize) :
    frameBytes frame = headerBytes headerMagic (.ofNat frame.buffer.length) frame.header.type ++ frame.buffer := by
  rw [frameBytes, encodeFrame, if_neg (Nat.not_lt.2 fits), headerBytes]
  simp only [Option.getD_some, List.append_assoc]

/-- A frame is read back from the front of the stream. -/
theorem readFrame_frameBytes {frame : Frame} (fits : frame.buffer.length ≤ maxMessageSize) (rest : Bytes) :
    readFrame (frameBytes frame ++ rest) = .ok (frame.received, rest) := by
  have length := length_toNat fits
  have taken : ¬ RefusedHeader headerMagic (.ofNat frame.buffer.length) := by
    rw [RefusedHeader, length]
    exact not_or.2 ⟨fun wrong => wrong rfl, by omega⟩
  have enough : ¬ (frame.buffer ++ rest).length < frame.buffer.length := by
    rw [List.length_append]
    omega
  rw [frameBytes_eq fits, List.append_assoc, readFrame_header, if_neg taken, length, if_neg enough, List.take_left,
    List.drop_left]
  rfl

/-- Nothing is read that is not the encoding of a frame. -/
theorem readFrame_exact {stream rest : Bytes} {frame : Frame} (read : readFrame stream = .ok (frame, rest)) :
    frame.Regular ∧ stream = frameBytes frame ++ rest := by
  rcases header_or_short stream with short | ⟨magic, length, type, behind, rfl⟩
  · rw [readFrame_short short] at read
    cases read
  rw [readFrame_header] at read
  split at read
  · cases read
  rename_i taken
  split at read
  · cases read
  rename_i enough
  cases read
  obtain ⟨right, short⟩ := not_or.1 taken
  have size : (behind.take length.toNat).length = length.toNat := by
    rw [List.length_take]
    omega
  have fits : (behind.take length.toNat).length ≤ maxMessageSize := by omega
  refine ⟨⟨not_not.1 right, size.symm, fits⟩, ?_⟩
  rw [frameBytes_eq fits, size, UInt32.ofNat_toNat, List.append_assoc, List.take_append_drop, not_not.1 right]

/-! ## A stream -/

/-- `readFrame` on a stream that can still go on: its end is not an error. -/
def cutFrame (stream : Bytes) : Cut UInt8 Frame Exn :=
  match readFrame stream with
  | .error .endOfFile => .starved
  | .error (.exception e) => .refused e
  | .ok (frame, rest) => .item frame rest

theorem cutFrame_item {stream rest : Bytes} {frame : Frame} :
    cutFrame stream = .item frame rest ↔ readFrame stream = .ok (frame, rest) := by
  unfold cutFrame
  split <;> rename_i read <;> simp [read]

theorem cutFrame_starved {stream : Bytes} : cutFrame stream = .starved ↔ readFrame stream = .error .endOfFile := by
  unfold cutFrame
  split <;> rename_i read <;> simp [read]

theorem cutFrame_refused {stream : Bytes} {e : Exn} :
    cutFrame stream = .refused e ↔ readFrame stream = .error (.exception e) := by
  unfold cutFrame
  split <;> rename_i read <;> simp [read]

theorem readFrame_exception {stream : Bytes} {e : Exn} : readFrame stream = .error (.exception e) ↔
    e = .runtimeError ∧ ∃ magic length type rest, RefusedHeader magic length ∧
      stream = headerBytes magic length type ++ rest := by
  constructor
  · intro read
    rcases header_or_short stream with short | ⟨magic, length, type, rest, rfl⟩
    · rw [readFrame_short short] at read
      cases read
    · rw [readFrame_header] at read
      split at read
      · rename_i refused
        cases read
        exact ⟨rfl, magic, length, type, rest, refused, rfl⟩
      · split at read <;> cases read
  · rintro ⟨rfl, magic, length, type, rest, refused, rfl⟩
    rw [readFrame_header, if_pos refused]

def frameCutter : Cutter UInt8 Frame Exn where
  cut := cutFrame
  shorter := fun {s frame rest} cut => by
    obtain ⟨regular, whole⟩ := readFrame_exact (cutFrame_item.1 cut)
    rw [whole, frameBytes_eq regular.fits, List.length_append, List.length_append, headerBytes_length, messageHeaderSize]
    omega
  item_append := fun {s frame rest} t cut => by
    obtain ⟨regular, whole⟩ := readFrame_exact (cutFrame_item.1 cut)
    rw [cutFrame_item, whole, List.append_assoc, readFrame_frameBytes regular.fits, regular.received]
  refused_append := fun {s e} t cut => by
    obtain ⟨error, magic, length, type, rest, refused, whole⟩ := readFrame_exception.1 (cutFrame_refused.1 cut)
    rw [cutFrame_refused, readFrame_exception]
    exact ⟨error, magic, length, type, rest ++ t, refused, by rw [whole, List.append_assoc]⟩

/-- What a connection that reads one frame after the other gets: the frames, the exception that ends it, and what it has
not taken. -/
def readFrames (stream : Bytes) : List Frame × Option Exn × Bytes := frameCutter.split stream

/-! ## `async_read_frame` -/

/-- Where a connection is that reads one frame after the other. -/
inductive ReadState where
  /-- So much of `header_bytes` has been filled. -/
  | awaitsHeader (headerBytes : Bytes)
  /-- So much of `payload` has been filled. -/
  | awaitsPayload (header : MessageHeader) (payload : Bytes)
  /-- The handler has been called with `protocol_error`. -/
  | failed (e : Exn)
  deriving DecidableEq

namespace ReadState

/-- One more byte comes; with the last one of a frame the handler is called. -/
def receive (b : UInt8) : ReadState → ReadState × List Frame
  | awaitsHeader headerBytes =>
      let headerBytes := headerBytes ++ [b]
      if headerBytes.length < messageHeaderSize then (awaitsHeader headerBytes, [])
      else
        match decodeHeader headerBytes with
        | .error e => (failed e, [])
        | .ok header =>
            if header.length.toNat = 0 then (awaitsHeader [], [{ header, buffer := [] }]) else (awaitsPayload header [], [])
  | awaitsPayload header payload =>
      let payload := payload ++ [b]
      if payload.length < header.length.toNat then (awaitsPayload header payload, [])
      else (awaitsHeader [], [{ header, buffer := payload }])
  | failed e => (failed e, [])

def receiveAll : Bytes → ReadState → ReadState × List Frame
  | [], state => (state, [])
  | b :: bytes, state =>
      let (state, frames) := state.receive b
      let (state, later) := receiveAll bytes state
      (state, frames ++ later)

/-- Where the reader is after a stream of which `left` has made no frame. -/
def after (ended : Option Exn) (left : Bytes) : ReadState :=
  match ended with
  | some e => failed e
  | none =>
      if left.length < messageHeaderSize then awaitsHeader left
      else
        match decodeHeader (left.take messageHeaderSize) with
        | .error e => failed e
        | .ok header => awaitsPayload header (left.drop messageHeaderSize)

theorem after_header (magic : UInt8) (length : UInt32) (type : MessageType) (rest : Bytes) :
    after none (headerBytes magic length type ++ rest) =
      if RefusedHeader magic length then failed .runtimeError else awaitsPayload { magic, length, type } rest := by
  have header : (headerBytes magic length type ++ rest).take messageHeaderSize = headerBytes magic length type :=
    List.take_left' (headerBytes_length magic length type)
  have behind : (headerBytes magic length type ++ rest).drop messageHeaderSize = rest :=
    List.drop_left' (headerBytes_length magic length type)
  have long : ¬ (headerBytes magic length type ++ rest).length < messageHeaderSize := by
    rw [List.length_append, headerBytes_length]
    omega
  rw [after, if_neg long, header, behind, decodeHeader_eq]
  by_cases refused : RefusedHeader magic length
  · simp only [if_pos refused]
  · simp only [if_neg refused]

theorem receiveAll_append (bytes bytes' : Bytes) (state : ReadState) : receiveAll (bytes ++ bytes') state =
    ((receiveAll bytes' (receiveAll bytes state).1).1,
      (receiveAll bytes state).2 ++ (receiveAll bytes' (receiveAll bytes state).1).2) := by
  induction bytes generalizing state with
  | nil => rfl
  | cons b bytes ih => simp only [List.cons_append, receiveAll, ih, List.append_assoc]

theorem receiveAll_failed (bytes : Bytes) (e : Exn) : receiveAll bytes (failed e) = (failed e, []) := by
  induction bytes with
  | nil => rfl
  | cons b bytes ih => simp only [receiveAll, receive, ih, List.append_nil]

theorem receiveAll_header {got bytes : Bytes} (short : got.length + bytes.length < messageHeaderSize) :
    receiveAll bytes (awaitsHeader got) = (awaitsHeader (got ++ bytes), []) := by
  induction bytes generalizing got with
  | nil => rw [List.append_nil]; rfl
  | cons b bytes ih =>
      rw [List.length_cons] at short
      have less : (got ++ [b]).length < messageHeaderSize := by
        rw [List.length_append, List.length_singleton]
        omega
      have rest : (got ++ [b]).length + bytes.length < messageHeaderSize := by
        rw [List.length_append, List.length_singleton]
        omega
      simp only [receiveAll, receive, if_pos less, ih rest, List.append_assoc, List.singleton_append, List.nil_append]

theorem receiveAll_payload {header : MessageHeader} {got bytes : Bytes}
    (short : got.length + bytes.length < header.length.toNat) :
    receiveAll bytes (awaitsPayload header got) = (awaitsPayload header (got ++ bytes), []) := by
  induction bytes generalizing got with
  | nil => rw [List.append_nil]; rfl
  | cons b bytes ih =>
      rw [List.length_cons] at short
      have less : (got ++ [b]).length < header.length.toNat := by
        rw [List.length_append, List.length_singleton]
        omega
      have rest : (got ++ [b]).length + bytes.length < header.length.toNat := by
        rw [List.length_append, List.length_singleton]
        omega
      simp only [receiveAll, receive, if_pos less, ih rest, List.append_assoc, List.singleton_append, List.nil_append]

/-- All bytes but the last one fill the buffer, and the last one completes it. -/
theorem receiveAll_last {bytes : Bytes} {state waiting : ReadState} (some : bytes ≠ [])
    (fills : receiveAll bytes.dropLast state = (waiting, [])) :
    receiveAll bytes state = waiting.receive (bytes.getLast some) := by
  calc receiveAll bytes state
      = receiveAll (bytes.dropLast ++ [bytes.getLast some]) state := by rw [List.dropLast_append_getLast some]
    _ = waiting.receive (bytes.getLast some) := by
        rw [receiveAll_append, fills]
        simp [receiveAll]

theorem receiveAll_wholeHeader (magic : UInt8) (length : UInt32) (type : MessageType) :
    receiveAll (headerBytes magic length type) (awaitsHeader []) =
      if RefusedHeader magic length then (failed .runtimeError, [])
      else if length.toNat = 0 then (awaitsHeader [], [{ header := { magic, length, type }, buffer := [] }])
      else (awaitsPayload { magic, length, type } [], []) := by
  have size := headerBytes_length magic length type
  have some : headerBytes magic length type ≠ [] := fun none => by
    rw [none] at size
    cases size
  have whole := List.dropLast_append_getLast some
  have short : ([] : Bytes).length + (headerBytes magic length type).dropLast.length < messageHeaderSize := by
    rw [List.length_dropLast, size, messageHeaderSize, List.length_nil]
    omega
  rw [receiveAll_last some (receiveAll_header short)]
  simp only [receive, List.nil_append, whole, size, lt_irrefl, if_false, decodeHeader_eq]
  by_cases refused : RefusedHeader magic length
  · simp only [if_pos refused]
  · simp only [if_neg refused]

theorem receiveAll_wholePayload {header : MessageHeader} {buffer : Bytes} (some : buffer ≠ [])
    (size : buffer.length = header.length.toNat) :
    receiveAll buffer (awaitsPayload header []) = (awaitsHeader [], [{ header, buffer }]) := by
  have whole := List.dropLast_append_getLast some
  have nonempty := List.length_pos_iff.2 some
  have short : ([] : Bytes).length + buffer.dropLast.length < header.length.toNat := by
    rw [List.length_dropLast, List.length_nil]
    omega
  rw [receiveAll_last some (receiveAll_payload short)]
  simp only [receive, List.nil_append, whole, size, lt_irrefl, if_false]

theorem receiveAll_frame {frame : Frame} (regular : frame.Regular) :
    receiveAll (frameBytes frame) (awaitsHeader []) = (awaitsHeader [], [frame]) := by
  have taken : ¬ RefusedHeader headerMagic (.ofNat frame.buffer.length) := by
    rw [RefusedHeader, length_toNat regular.fits]
    exact not_or.2 ⟨fun wrong => wrong rfl, Nat.not_lt.2 regular.fits⟩
  have same := regular.received
  rw [frameBytes_eq regular.fits, receiveAll_append, receiveAll_wholeHeader, if_neg taken, length_toNat regular.fits]
  by_cases empty : frame.buffer = []
  · rw [Frame.received, empty] at same
    rw [empty, List.length_nil, if_pos rfl]
    simp only [receiveAll, List.append_nil]
    exact congrArg (fun frame => (awaitsHeader [], [frame])) same
  · rw [if_neg (fun none => empty (List.length_eq_zero_iff.1 none)),
      receiveAll_wholePayload empty (length_toNat regular.fits).symm]
    exact congrArg (fun frame => (awaitsHeader [], [frame])) same

/-- The bytes make the same frames however they come. -/
theorem receiveAll_eq (stream : Bytes) : receiveAll stream (awaitsHeader []) =
    (after (readFrames stream).2.1 (readFrames stream).2.2, (readFrames stream).1) := by
  refine Cutter.split_induction (c := frameCutter)
    (P := fun stream r => receiveAll stream (awaitsHeader []) = (after r.2.1 r.2.2, r.1))
    (fun stream starved => ?_) (fun stream e refused => ?_) (fun stream frame rest item ih => ?_) stream
  · change receiveAll stream (awaitsHeader []) = (after none stream, [])
    have ended := cutFrame_starved.1 starved
    rcases header_or_short stream with short | ⟨magic, length, type, rest, rfl⟩
    · rw [receiveAll_header (by simpa using short), after, if_pos short, List.nil_append]
    rw [readFrame_header] at ended
    split at ended
    · cases ended
    rename_i taken
    split at ended
    · rename_i short
      have some : length.toNat ≠ 0 := by omega
      have filled : receiveAll rest (awaitsPayload { magic, length, type } []) =
          (awaitsPayload { magic, length, type } rest, []) :=
        receiveAll_payload (by simpa using short)
      rw [receiveAll_append, receiveAll_wholeHeader, if_neg taken, if_neg some, filled, after_header, if_neg taken]
      rfl
    · cases ended
  · change receiveAll stream (awaitsHeader []) = (after (some e) stream, [])
    obtain ⟨rfl, magic, length, type, rest, bad, rfl⟩ := readFrame_exception.1 (cutFrame_refused.1 refused)
    rw [receiveAll_append, receiveAll_wholeHeader, if_pos bad, receiveAll_failed]
    rfl
  · obtain ⟨regular, whole⟩ := readFrame_exact (cutFrame_item.1 item)
    rw [whole, receiveAll_append, receiveAll_frame regular, ih]
    rfl

end ReadState

/-! ## Frames survive the stream -/

theorem readFrames_encoded {frames : List Frame} (fits : ∀ frame ∈ frames, frame.buffer.length ≤ maxMessageSize)
    (stream : Bytes) : readFrames (frames.flatMap frameBytes ++ stream) =
      (frames.map Frame.received ++ (readFrames stream).1, (readFrames stream).2) :=
  Cutter.split_encoded frames (fun frame mem rest => cutFrame_item.2 (readFrame_frameBytes (fits frame mem) rest)) stream

theorem readFrames_refused {magic : UInt8} {length : UInt32} (refused : RefusedHeader magic length) (type : MessageType)
    (rest : Bytes) : readFrames (headerBytes magic length type ++ rest) =
      ([], some .runtimeError, headerBytes magic length type ++ rest) :=
  Cutter.split_refused (cutFrame_refused.2 (readFrame_exception.2 ⟨rfl, magic, length, type, rest, refused, rfl⟩))

theorem mapM_encodeFrame {frames : List Frame} (fits : ∀ frame ∈ frames, frame.buffer.length ≤ maxMessageSize) :
    frames.mapM encodeFrame = some (frames.map frameBytes) := by
  induction frames with
  | nil => rfl
  | cons frame frames ih =>
      rw [List.mapM_cons, encodeFrame_eq (fits frame List.mem_cons_self), ih fun f mem => fits f (List.mem_cons_of_mem _ mem)]
      rfl

theorem readFrames_empty : readFrames [] = ([], none, []) :=
  have short : cutFrame [] = .starved := cutFrame_starved.2 (readFrame_short (by decide))
  Cutter.split_starved short

/-- What a connection makes of any stream. -/
structure Reads (stream : Bytes) : Prop where
  whole : stream = (readFrames stream).1.flatMap frameBytes ++ (readFrames stream).2.2
  regular : ∀ frame ∈ (readFrames stream).1, frame.Regular
  /-- It stops exactly at a header that is refused. -/
  stops : (readFrames stream).2.1 ≠ none ↔ ∃ magic length type rest, RefusedHeader magic length ∧
    (readFrames stream).2.2 = headerBytes magic length type ++ rest
  /-- Byte by byte it does the same. -/
  asynchronous : ReadState.receiveAll stream (.awaitsHeader []) =
    (.after (readFrames stream).2.1 (readFrames stream).2.2, (readFrames stream).1)

theorem reads (stream : Bytes) : Reads stream := by
  have left : cutFrame (readFrames stream).2.2 = (readFrames stream).2.1.elim .starved .refused := frameCutter.split_left stream
  refine ⟨Cutter.split_join (fun s frame rest cut => (readFrame_exact (cutFrame_item.1 cut)).2) stream,
    Cutter.split_all (fun s frame rest cut => (readFrame_exact (cutFrame_item.1 cut)).1) stream, ?_,
    ReadState.receiveAll_eq stream⟩
  constructor
  · intro ended
    obtain ⟨e, ended⟩ := Option.ne_none_iff_exists'.1 ended
    rw [ended] at left
    obtain ⟨-, refused⟩ := readFrame_exception.1 (cutFrame_refused.1 left)
    exact refused
  · rintro ⟨magic, length, type, rest, refused, same⟩ ended
    have bad := cutFrame_refused.2 (readFrame_exception.2 ⟨rfl, magic, length, type, rest, refused, same⟩)
    rw [ended, bad] at left
    cases left

/-- Whatever the headers of the frames said, they are read back from the stream, and from a part of it or a stream that
goes wrong behind them no others. -/
theorem frames_survive (frames : List Frame) (fits : ∀ frame ∈ frames, frame.buffer.length ≤ maxMessageSize) :
    (∃ (outputs : List Bytes) (got : List Frame), frames.mapM encodeFrame = some outputs ∧
      readFrames outputs.flatten = (got, none, []) ∧
      got.map (fun frame => (frame.header.type, frame.buffer)) = frames.map (fun frame => (frame.header.type, frame.buffer)) ∧
      (∀ frame ∈ got, frame.header.magic = headerMagic ∧ frame.header.length.toNat = frame.buffer.length) ∧
      (∀ part, part <+: outputs.flatten → (readFrames part).1 <+: got ∧ (readFrames part).2.1 = none) ∧
      ∀ magic length type rest, RefusedHeader magic length →
        readFrames (outputs.flatten ++ (headerBytes magic length type ++ rest)) =
          (got, some .runtimeError, headerBytes magic length type ++ rest)) ∧
      ∀ stream, Reads stream := by
  have encoded := mapM_encodeFrame fits
  have all : readFrames (frames.map frameBytes).flatten = (frames.map Frame.received, none, []) := by
    have read := readFrames_encoded fits []
    rwa [List.append_nil, readFrames_empty, List.append_nil, List.flatMap] at read
  refine ⟨⟨frames.map frameBytes, frames.map Frame.received, encoded, all, ?_, ?_, ?_, ?_⟩, reads⟩
  · rw [List.map_map]
    rfl
  · intro frame mem
    obtain ⟨sent, here, rfl⟩ := List.mem_map.1 mem
    have regular := Frame.received_regular (fits sent here)
    exact ⟨regular.magic, regular.length⟩
  · rintro part ⟨more, whole⟩
    constructor
    · have kept := frameCutter.split_prefix part more
      rw [whole] at kept
      rwa [show frameCutter.split (frames.map frameBytes).flatten = _ from all] at kept
    · by_contra ended
      obtain ⟨magic, length, type, rest, refused, left⟩ := (reads part).stops.1 ended
      have regular : ∀ frame ∈ (readFrames part).1, frame.buffer.length ≤ maxMessageSize := fun frame mem =>
        ((reads part).regular frame mem).fits
      rw [← whole, (reads part).whole, left, List.append_assoc, List.append_assoc, readFrames_encoded regular,
        readFrames_refused refused] at all
      exact absurd (congrArg (fun r => r.2.1) all) (by simp)
  · intro magic length type rest refused
    rw [← List.flatMap, readFrames_encoded fits, readFrames_refused refused, List.append_nil]

/-- Two frames with nothing right in their headers but the type. -/
def carelessFrames : List Frame :=
  [{ header := { magic := 0, length := 99, type := .hello }, buffer := [1, 2, 3] },
    { header := { magic := 7, length := 1, type := .clientRpc }, buffer := [] }]

theorem frames_survive_careless : ∃ (outputs : List Bytes) (got : List Frame),
    carelessFrames.mapM encodeFrame = some outputs ∧ readFrames outputs.flatten = (got, none, []) ∧
      got.map (fun frame => (frame.header.type, frame.buffer)) = [(.hello, [1, 2, 3]), (.clientRpc, [])] := by
  obtain ⟨⟨outputs, got, encoded, read, same, -⟩, -⟩ := frames_survive carelessFrames (by decide)
  exact ⟨outputs, got, encoded, read, same⟩

end Dfs
