import Microkernel.Proofs.Service.Cases

/-!
# What an image is answered with

A message image closes its session, or is rejected for a reason that can be read off the image and the commands of the service
(`Rejects`), or is carried out. `dispatchWith_classifies` says it for every byte string: a rejected image changes nothing but the
journal, whatever is answered can be read as a response, and a session ends only if it was asked to or its handler is corrupted.
-/

namespace Microkernel

open Machine
open Wire (Bytes CommandType FrameHeader Message Request Response)

/-! ## Frames -/

namespace Wire

/-- The data section has room for a frame header behind its padding, and the header begins with the magic word. -/
def Message.HasFrame (m : Message) (magic : Nat) : Prop :=
  framePadding m.dataOffset + frameHeaderSize ≤ m.data.length ∧
    ofLittleEndian ((m.data.drop (framePadding m.dataOffset)).take 4) = magic

namespace Decoder

/-- Four bytes that are there are read as a word. -/
theorem word_of_le {image : Bytes} {offset : Nat} (h : offset + 4 ≤ image.length) :
    word image offset = .ok (ofLittleEndian ((image.drop offset).take 4), offset + 4) := by
  have ht : take 4 image offset = .ok ((image.drop offset).take 4, offset + 4) := if_pos h
  change Decoder.bind (take 4) _ image offset = _
  unfold Decoder.bind
  rw [ht]
  rfl

/-- One decoder behind another. -/
theorem bind_of_ok {α β : Type} {d : Decoder α} {f : α → Decoder β} {image : Bytes} {offset next : Nat} {a : α}
    (h : d image offset = .ok (a, next)) : (d >>= f) image offset = f a image next := by
  change Decoder.bind d f image offset = _
  unfold Decoder.bind
  rw [h]

end Decoder

/-- A header is read from any sixteen bytes that begin with the magic word. -/
theorem FrameHeader.run_decoder {magic : Nat} {frame : Bytes} (h : frameHeaderSize ≤ frame.length) :
    (∃ header, (decoder magic).run frame = .ok header) ↔ ofLittleEndian (frame.take 4) = magic := by
  unfold frameHeaderSize at h
  unfold Decoder.run decoder
  rw [Decoder.bind_of_ok (Decoder.word_of_le (show 0 + 4 ≤ frame.length by omega))]
  dsimp only
  rw [List.drop_zero]
  by_cases hm : ofLittleEndian (frame.take 4) = magic
  · rw [if_neg fun hne => hne hm]
    refine iff_of_true ?_ hm
    rw [Decoder.bind_of_ok (Decoder.word_of_le (by omega)), Decoder.bind_of_ok (Decoder.word_of_le (by omega)),
      Decoder.bind_of_ok (Decoder.word_of_le (by omega))]
    exact ⟨_, rfl⟩
  · rw [if_pos hm]
    refine iff_of_false ?_ hm
    rintro ⟨header, he⟩
    cases he

/-- A frame is read exactly where there is one. -/
theorem Message.exists_readFrame_iff (m : Message) (magic : Nat) : (∃ frame, m.readFrame magic = .ok frame) ↔ m.HasFrame magic := by
  unfold readFrame frame HasFrame
  by_cases hl : m.data.length < framePadding m.dataOffset + frameHeaderSize
  · rw [if_pos hl]
    refine iff_of_false ?_ fun h => absurd h.1 (Nat.not_le.2 hl)
    rintro ⟨frame, hf⟩
    cases hf
  · have hlength : frameHeaderSize ≤ (m.data.drop (framePadding m.dataOffset)).length := by
      rw [List.length_drop]
      omega
    rw [if_neg hl, and_iff_right (Nat.not_lt.1 hl), ← FrameHeader.run_decoder hlength]
    change (∃ frame, ((FrameHeader.decoder magic).run _).bind _ = .ok frame) ↔ _
    cases (FrameHeader.decoder magic).run (m.data.drop (framePadding m.dataOffset)) with
    | ok header => exact iff_of_true ⟨_, rfl⟩ ⟨_, rfl⟩
    | error e => exact iff_of_false (by rintro ⟨_, he⟩; cases he) (by rintro ⟨_, he⟩; cases he)

end Wire

/-! ## Types of messages -/

/-- The image is a request to close the session. -/
def Closes (image : Bytes) : Prop := ∃ message, Message.decode image = .ok message ∧ message.messageType = 2

/-- The image carries a call to the service, and its frame. -/
def Requests (image : Bytes) (message : Message) (header : FrameHeader) (payload : Bytes) : Prop :=
  Message.decode image = .ok message ∧ message.messageType ∈ [4, 6] ∧ message.readFrame Wire.requestMagic = .ok (header, payload)

/-- The image carries a call to the session itself, and its frame. -/
def Controls (image : Bytes) (message : Message) (header : FrameHeader) (payload : Bytes) : Prop :=
  Message.decode image = .ok message ∧ message.messageType ∈ [5, 7] ∧ message.readFrame Wire.requestMagic = .ok (header, payload)

/-- Why an image is rejected by a service, and the code that says so. -/
inductive Rejects (service : Service) (image : Bytes) : ResultCode → Prop
  /-- It is no message. -/
  | malformed {e : Wire.ProtocolError} : Message.decode image = .error e → Rejects service image .invalidHeaderSize
  /-- It is neither a request to close, nor a call to the service, nor one to the session. -/
  | unsupported {message : Message} : Message.decode image = .ok message → message.messageType ∉ [2, 4, 5, 6, 7] →
      Rejects service image .invalidInHeader
  /-- It is a call without a valid frame. -/
  | unframed {message : Message} : Message.decode image = .ok message → message.messageType ∈ [4, 5, 6, 7] →
      ¬message.HasFrame Wire.requestMagic → Rejects service image .invalidInHeader
  /-- The service does not have the command. -/
  | unknownCommand {message : Message} {header : FrameHeader} {payload : Bytes} : Requests image message header payload →
      service.findCommand header.value = none → Rejects service image .unknownCommandId
  /-- Sessions do not have the command. -/
  | unknownControl {message : Message} {header : FrameHeader} {payload : Bytes} : Controls image message header payload →
      header.value ∉ [Wire.cloneObject, Wire.queryPointerBufferSize, Wire.cloneObjectEx] → Rejects service image .unknownCommandId
  /-- A buffer that the command declares is missing or too small. -/
  | unfitBuffer {message : Message} {header : FrameHeader} {payload : Bytes} {command : CommandInfo} {spec : BufferSpec} :
      Requests image message header payload → service.findCommand header.value = some command → spec ∈ command.buffers →
      (∀ size, spec.actualSize message = some size → size < spec.minSize) → Rejects service image .invalidBufferSize

namespace Wire.CommandType

/-- Only the message type 2 closes. -/
theorem getD_eq_close (code : UInt16) : (ofCode? code).getD .invalid = .close ↔ code = 2 := by
  rw [← UInt16.toNat_inj, ofCode?]
  split <;> simp_all

/-- The message types 4 and 6 are requests. -/
theorem isRequest_getD (code : UInt16) : ((ofCode? code).getD .invalid).isRequest = true ↔ code ∈ [4, 6] := by
  simp only [List.mem_cons, List.not_mem_nil, or_false, ← UInt16.toNat_inj]
  rw [ofCode?]
  split <;> simp_all [isRequest]

/-- The message types 5 and 7 are control requests. -/
theorem isControl_getD (code : UInt16) : ((ofCode? code).getD .invalid).isControl = true ↔ code ∈ [5, 7] := by
  simp only [List.mem_cons, List.not_mem_nil, or_false, ← UInt16.toNat_inj]
  rw [ofCode?]
  split <;> simp_all [isControl]

end Wire.CommandType

namespace Wire

/-- The request that a message makes with its frame. -/
def Message.requestOf (m : Message) (header : FrameHeader) (payload : Bytes) : Request :=
  { commandType := (CommandType.ofCode? m.messageType).getD .invalid, header, payload, message := m }

@[simp] theorem Message.commandId_requestOf (m : Message) (header : FrameHeader) (payload : Bytes) :
    (m.requestOf header payload).commandId = header.value := rfl

/-- A message with a frame makes its request. -/
theorem Request.ofMessage_of_ok {m : Message} {header : FrameHeader} {payload : Bytes}
    (h : m.readFrame requestMagic = .ok (header, payload)) :
    ofMessage ((CommandType.ofCode? m.messageType).getD .invalid) m = .ok (m.requestOf header payload) := by
  unfold ofMessage
  rw [h]
  rfl

/-- A message without a frame makes none. -/
theorem Request.ofMessage_of_not_hasFrame {m : Message} (command : CommandType) (h : ¬m.HasFrame requestMagic) :
    ∃ e, ofMessage command m = .error e := by
  unfold ofMessage
  cases hf : m.readFrame requestMagic with
  | ok frame => exact absurd ((m.exists_readFrame_iff _).1 ⟨frame, hf⟩) h
  | error e => exact ⟨e, rfl⟩

end Wire

/-! ## Responses -/

/-- The image fits a message buffer and is read as a response with a result. -/
def Tells (image : Bytes) (code : ResultCode) : Prop :=
  image.length ≤ Wire.messageBufferSize ∧ ∃ r, Response.parse image = .ok r ∧ r.result = code

/-- The image of a response tells its result. -/
theorem tells_encode {r : Response} {image : Bytes} (h : r.encode = .ok image) : Tells image r.result :=
  ⟨(Wire.decode_encode r.message image h).1, _, Response.parse_encode h, rfl⟩

/-- A bare response tells its result. -/
theorem tells_bare (code : ResultCode) : Tells (Response.bare code) code := tells_encode (Response.encode_bare code)

/-- A response that carries only a result is read with that result. -/
theorem Tells.eq_of_bare {code reason : ResultCode} (h : Tells (Response.bare reason) code) : code = reason := by
  obtain ⟨-, r, hr, rfl⟩ := h
  obtain ⟨r', hr', rfl, -⟩ := Response.parse_bare reason
  rw [hr] at hr'
  rw [Except.ok.inj hr']

/-- A success with at most a word of payload and one handle fits. -/
theorem fits_short (payload : Bytes) (handles : List UInt32) (hp : payload.length ≤ 4) (hh : handles.length ≤ 1) :
    (Response.message { result := .success, payload, moveHandles := handles }).Fits := by
  have hoffset : (Response.envelope { result := .success, payload, moveHandles := handles }).computeDataOffset ≤ 16 := by
    simp only [Response.envelope, Message.computeDataOffset, Message.hasSpecialHeader]
    grind
  have hsize : Wire.reservedSize payload ≤ 36 := by
    unfold Wire.reservedSize Wire.alignUp Wire.frameAlignment Wire.frameHeaderSize
    omega
  refine (Response.fits_iff _).2 ⟨Nat.zero_le _, Nat.le_trans hh (by decide), Nat.zero_le _, ?_⟩
  exact Nat.le_trans (Nat.add_le_add hoffset hsize) (by decide)

/-- What is answered for a response that fits tells its result. -/
theorem tells_imageOf {r : Response} (h : r.message.Fits) : Tells (imageOf r) r.result := by
  have hencode : r.encode = .ok _ := (Wire.Message.encode_eq_ok_iff _ _).2 ⟨h, rfl⟩
  unfold imageOf
  rw [hencode]
  exact tells_encode hencode

/-! ## How handlers end -/

namespace HandlerFailure

/-- The result of a command whose handler fails. -/
def code : HandlerFailure → ResultCode
  | error e => e.code
  | panicked => .handlerFailed

/-- Whether the failure ends the session. -/
def corrupts : HandlerFailure → Bool
  | error (.corrupted _) => true
  | _ => false

end HandlerFailure

/-- A command is answered as its handler ended: with a response that carries the failure, if there is one, and the session ends only
for a corrupted handler. -/
structure Answers (handled : Option (Except HandlerFailure Unit)) (answer : Dispatched) : Prop where
  response : ∃ code, Tells answer.response code ∧ ∀ failure, handled = some (.error failure) → code = failure.code
  close : answer.close = true ↔ ∃ failure, handled = some (.error failure) ∧ failure.corrupts = true

/-- What can be read and ends no session answers a command whose handler did not fail, or did not run. -/
theorem answers_told {handled : Option (Except HandlerFailure Unit)} {answer : Dispatched} {code : ResultCode}
    (hh : ∀ failure, handled ≠ some (.error failure)) (h : Tells answer.response code) (hc : answer.close = false) :
    Answers handled answer where
  response := ⟨code, h, fun failure hf => absurd hf (hh failure)⟩
  close := iff_of_false (by rw [hc]; exact Bool.false_ne_true) (by rintro ⟨failure, hf, -⟩; exact hh failure hf)

/-- A failure without a handler is answered by its code. -/
theorem answers_failure (code : ResultCode) : Answers none (.failure code) :=
  answers_told (fun _ h => nomatch h) (tells_bare code) rfl

namespace Dispatcher

variable {d : Dispatcher} {handlers : Handlers} {entry : SessionEntry} {client : RecordId} {image : Bytes} {s : Machine}

/-- Completing a call answers a success. -/
theorem complete_answers (d : Dispatcher) (c : Call) (s : Machine) : Answers (some (.ok ())) (d.complete c s).1 := by
  by_cases hroom : c.HasRoom s
  · obtain ⟨copies, moves, t, s₁, -, -, -, hcases⟩ := complete_of_room d hroom
    rcases hcases with ⟨-, -, image, hencode, hrun⟩ | ⟨released, code, s', -, -, -, hrun, -⟩
    · rw [hrun]
      exact answers_told (fun _ h => nomatch h) (tells_encode hencode) rfl
    · rw [hrun]
      exact answers_told (fun _ h => nomatch h) (tells_bare code) rfl
  · obtain ⟨handles, some, released, t, code, s', -, -, -, -, hrun⟩ := complete_of_full d hroom
    rw [hrun]
    exact answers_told (fun _ h => nomatch h) (tells_bare code) rfl

/-- A handler that fails is told by its code, and ends the session if it is corrupted. -/
theorem conclude_failure (d : Dispatcher) (c : Call) (label : String) (failure : HandlerFailure) (s : Machine) :
    (d.conclude c label (.error failure) s).1 = { response := Response.bare failure.code, close := failure.corrupts } := by
  cases failure with
  | panicked => rfl
  | error e => cases e <;> rfl

/-- Concluding a call answers as its handler ended. -/
theorem conclude_answers (d : Dispatcher) (c : Call) (label : String) (outcome : Except HandlerFailure Unit) (s : Machine) :
    Answers (some outcome) (d.conclude c label outcome s).1 := by
  cases outcome with
  | ok u => exact complete_answers d c s
  | error failure =>
    rw [conclude_failure]
    constructor
    case response =>
      refine ⟨failure.code, tells_bare _, fun failure' h => ?_⟩
      cases h
      rfl
    case close =>
      refine ⟨fun h => ⟨failure, rfl, h⟩, ?_⟩
      rintro ⟨failure', h, hc⟩
      cases h
      exact hc

/-- A command is answered as its handler ends, or as the handle that cannot be attached says. -/
theorem carryOut_answers (d : Dispatcher) (handler : Handler Unit) (label : String) (call : Call) (s : Machine) :
    Answers ((call.handled? handler s).map fun h => h.1.1) (d.carryOut handler label call s).1 := by
  rcases himport : call.importAll s with ⟨⟨e | u, c⟩, s₁⟩
  · obtain ⟨s', hrun, -⟩ := carryOut_of_error d handler label himport
    rw [hrun, Call.handled?_of_error himport]
    exact answers_failure e.code
  · rcases hinvoke : handler.run.run c s₁ with ⟨⟨outcome, c'⟩, s₂⟩
    rw [carryOut_of_ok d label himport hinvoke, Call.handled?_of_ok himport hinvoke]
    exact conclude_answers d c' label outcome s₂

/-- How the handler of an image's command ended; nothing if none ran. -/
def outcome? (d : Dispatcher) (handlers : Handlers) (entry : SessionEntry) (client : RecordId) (image : Bytes) (s : Machine) :
    Option (Except HandlerFailure Unit) :=
  (Request.commandRequest? image).bind fun request => (d.handled? handlers entry client request s).map fun h => h.1.1

/-- Without a command no handler has an outcome. -/
theorem outcome?_of_no_command (h : Request.commandRequest? image = none) : d.outcome? handlers entry client image s = none := by
  rw [outcome?, h]
  rfl

/-- With a command the outcome is that of its handler. -/
theorem outcome?_of_command {request : Request} (h : Request.commandRequest? image = some request) :
    d.outcome? handlers entry client image s = (d.handled? handlers entry client request s).map fun h => h.1.1 := by
  rw [outcome?, h]
  rfl

/-! ## Closing -/

/-- A request to close has an empty response and ends the session. -/
theorem dispatchWith_of_closes (h : Closes image) : d.dispatchWith handlers entry client image s = ({ close := true }, s) := by
  obtain ⟨message, hd, ht⟩ := h
  rw [dispatchWith, Update.run_look, hd]
  dsimp only
  rw [if_pos ((CommandType.getD_eq_close _).2 ht)]
  rfl

/-! ## Calls -/

section Calls

variable {message : Message} {header : FrameHeader} {payload : Bytes}

/-- An image that requests something carries the command of its request. -/
theorem commandRequest?_of_requests (h : Requests image message header payload) :
    Request.commandRequest? image = some (message.requestOf header payload) := by
  obtain ⟨hd, ht, hf⟩ := h
  unfold Request.commandRequest?
  rw [hd]
  dsimp only
  rw [if_pos ((CommandType.isRequest_getD _).2 ht), Request.ofMessage_of_ok hf]
  rfl

/-- An image of another type carries no command. -/
theorem commandRequest?_of_not_mem (hd : Message.decode image = .ok message) (ht : message.messageType ∉ [4, 6]) :
    Request.commandRequest? image = none := by
  unfold Request.commandRequest?
  rw [hd]
  dsimp only
  rw [if_neg fun h => ht ((CommandType.isRequest_getD _).1 h)]

/-- A call to the session is none to the service. -/
theorem commandRequest?_of_controls (h : Controls image message header payload) : Request.commandRequest? image = none := by
  obtain ⟨hd, ht, -⟩ := h
  exact commandRequest?_of_not_mem hd (by grind)

/-- A call to the session is dispatched as its request. -/
theorem dispatchWith_of_controls (h : Controls image message header payload) :
    d.dispatchWith handlers entry client image s = d.dispatchControl entry client (message.requestOf header payload) s := by
  obtain ⟨hd, ht, hf⟩ := h
  have hclose : message.messageType ≠ 2 := by grind
  have hrequest : message.messageType ∉ [4, 6] := by grind
  rw [dispatchWith, Update.run_look, hd]
  dsimp only
  rw [if_neg fun h => hclose ((CommandType.getD_eq_close _).1 h), if_neg fun h => hrequest ((CommandType.isRequest_getD _).1 h),
    if_pos ((CommandType.isControl_getD _).2 ht), Request.ofMessage_of_ok hf]

/-- A message brings a buffer unless it is missing or too small. -/
theorem isMet_eq_false_iff (spec : BufferSpec) (message : Message) :
    spec.isMet message = false ↔ ∀ size, spec.actualSize message = some size → size < spec.minSize := by
  unfold BufferSpec.isMet
  cases spec.actualSize message <;> simp

/-- A command is accepted if the service has it and every buffer it declares is there and large enough. -/
theorem accepts_of_met {service : RecordId} {command : CommandInfo}
    (hc : (s.service service).findCommand header.value = some command) (hm : ∀ spec ∈ command.buffers, spec.isMet message = true) :
    accepts s service (message.requestOf header payload) = true := by
  have hbuffers : validateBuffers command.buffers (message.requestOf header payload).message = .ok () :=
    if_pos (List.all_eq_true.2 hm)
  simp only [accepts, Wire.Message.commandId_requestOf, hc, hbuffers]
  rfl

/-- A command that the service does not have is refused. -/
theorem dispatchRequest_of_unknown (hc : (s.service entry.service).findCommand header.value = none) :
    accepts s entry.service (message.requestOf header payload) = false ∧ ∃ journal,
      d.dispatchRequest handlers entry client (message.requestOf header payload) s =
        (.failure .unknownCommandId, { s with journal }) := by
  constructor
  · rw [accepts, Wire.Message.commandId_requestOf, hc]
  · rw [dispatchRequest, Update.run_look, Wire.Message.commandId_requestOf, hc]
    exact ⟨_, rfl⟩

/-- A command is refused if a buffer it declares is missing or too small. -/
theorem dispatchRequest_of_unmet {command : CommandInfo} {spec : BufferSpec}
    (hc : (s.service entry.service).findCommand header.value = some command) (hs : spec ∈ command.buffers)
    (hm : spec.isMet message = false) : accepts s entry.service (message.requestOf header payload) = false ∧ ∃ journal,
      d.dispatchRequest handlers entry client (message.requestOf header payload) s =
        (.failure .invalidBufferSize, { s with journal }) := by
  have hbuffers : validateBuffers command.buffers (message.requestOf header payload).message = .error (.result .invalidBufferSize) :=
    if_neg fun hall => Bool.false_ne_true (hm.symm.trans (List.all_eq_true.1 hall spec hs))
  constructor
  · simp only [accepts, Wire.Message.commandId_requestOf, hc, hbuffers]
    rfl
  · simp only [dispatchRequest, Update.run_look, Wire.Message.commandId_requestOf, hc, hbuffers]
    exact ⟨_, rfl⟩

/-- A command that sessions do not have is refused. -/
theorem dispatchControl_of_unknown
    (hc : header.value ∉ [Wire.cloneObject, Wire.queryPointerBufferSize, Wire.cloneObjectEx]) : ∃ journal,
      d.dispatchControl entry client (message.requestOf header payload) s = (.failure .unknownCommandId, { s with journal }) := by
  simp only [List.mem_cons, List.not_mem_nil, or_false, not_or] at hc
  obtain ⟨hclone, hquery, hex⟩ := hc
  unfold dispatchControl
  rw [Wire.Message.commandId_requestOf, if_neg hquery, if_neg (not_or.2 ⟨hclone, hex⟩)]
  exact ⟨_, rfl⟩

/-- A second session is told by its handle, or refused for the reason why there is none. -/
theorem cloneSession_answers (entry : SessionEntry) (client : RecordId) (s : Machine) :
    Answers none (cloneSession entry client s).1 := by
  rw [cloneSession, Update.run_bind]
  dsimp only
  rw [Update.run_bind]
  rcases (generateHandle client (.clientSession (newSession none s).1.2)).run (newSession none s).2 with ⟨e | handle, s'⟩
  · exact answers_failure e.code
  · exact answers_told (fun _ h => nomatch h) (tells_imageOf (fits_short _ _ (by decide) (Nat.le_refl 1))) rfl

/-- The commands that sessions have are answered. -/
theorem dispatchControl_answers (d : Dispatcher) (entry : SessionEntry) (client : RecordId) (request : Request) (s : Machine) :
    Answers none (d.dispatchControl entry client request s).1 := by
  unfold dispatchControl
  split
  · exact answers_told (fun _ h => nomatch h) (tells_imageOf (fits_short _ _ (Nat.le_of_eq (Wire.length_word32 _)) (Nat.zero_le 1))) rfl
  · split
    · exact cloneSession_answers _ _ _
    · exact answers_failure _

end Calls

/-! ## Rejections -/

/-- A rejected image is answered with the code that says why, and only the journal is written. -/
theorem dispatchWith_of_rejects {code : ResultCode} (h : Rejects (s.service entry.service) image code) :
    d.outcome? handlers entry client image s = none ∧
      ∃ journal, d.dispatchWith handlers entry client image s = (.failure code, { s with journal }) := by
  cases h with
  | malformed hd =>
    refine ⟨outcome?_of_no_command (by rw [Request.commandRequest?, hd]), ?_⟩
    rw [dispatchWith, Update.run_look, hd]
    exact ⟨_, rfl⟩
  | @unsupported message hd ht =>
    have hclose : ¬(CommandType.ofCode? message.messageType).getD .invalid = .close := by
      rw [CommandType.getD_eq_close]
      grind
    have hrequest : ¬((CommandType.ofCode? message.messageType).getD .invalid).isRequest = true := by
      rw [CommandType.isRequest_getD]
      grind
    have hcontrol : ¬((CommandType.ofCode? message.messageType).getD .invalid).isControl = true := by
      rw [CommandType.isControl_getD]
      grind
    constructor
    · exact outcome?_of_no_command (commandRequest?_of_not_mem hd fun h => hrequest ((CommandType.isRequest_getD _).2 h))
    · rw [dispatchWith, Update.run_look, hd]
      dsimp only
      rw [if_neg hclose, if_neg hrequest, if_neg hcontrol]
      exact ⟨_, rfl⟩
  | @unframed message hd ht hf =>
    obtain ⟨e, he⟩ := Request.ofMessage_of_not_hasFrame ((CommandType.ofCode? message.messageType).getD .invalid) hf
    have hclose : ¬(CommandType.ofCode? message.messageType).getD .invalid = .close := by
      rw [CommandType.getD_eq_close]
      grind
    have hcall : ((CommandType.ofCode? message.messageType).getD .invalid).isRequest = true ∨
        ((CommandType.ofCode? message.messageType).getD .invalid).isControl = true := by
      rw [CommandType.isRequest_getD, CommandType.isControl_getD]
      grind
    constructor
    · refine outcome?_of_no_command ?_
      simp only [Request.commandRequest?, hd, he]
      exact ite_self _
    · rw [dispatchWith, Update.run_look, hd]
      dsimp only
      rw [if_neg hclose, he]
      split
      · exact ⟨_, rfl⟩
      · next hrequest =>
        rw [if_pos (hcall.resolve_left hrequest)]
        exact ⟨_, rfl⟩
  | unknownCommand hr hc =>
    obtain ⟨ha, hrun⟩ := dispatchRequest_of_unknown hc
    rw [dispatchWith_of_command (commandRequest?_of_requests hr)]
    refine ⟨?_, hrun⟩
    rw [outcome?_of_command (commandRequest?_of_requests hr), handled?_of_not_accepts ha]
    rfl
  | unfitBuffer hr hc hm hs =>
    obtain ⟨ha, hrun⟩ := dispatchRequest_of_unmet hc hm ((isMet_eq_false_iff _ _).2 hs)
    rw [dispatchWith_of_command (commandRequest?_of_requests hr)]
    refine ⟨?_, hrun⟩
    rw [outcome?_of_command (commandRequest?_of_requests hr), handled?_of_not_accepts ha]
    rfl
  | unknownControl hr hc =>
    rw [dispatchWith_of_controls hr]
    exact ⟨outcome?_of_no_command (commandRequest?_of_controls hr), dispatchControl_of_unknown hc⟩

/-! ## Classification -/

/-- What is neither closed nor rejected is carried out: a command of the service with all its buffers, or one that sessions have. -/
inductive Serves (service : Service) (image : Bytes) : Prop
  | command {message : Message} {header : FrameHeader} {payload : Bytes} {command : CommandInfo} :
      Requests image message header payload → service.findCommand header.value = some command →
      (∀ spec ∈ command.buffers, spec.isMet message = true) → Serves service image
  | control {message : Message} {header : FrameHeader} {payload : Bytes} : Controls image message header payload →
      header.value ∈ [Wire.cloneObject, Wire.queryPointerBufferSize, Wire.cloneObjectEx] → Serves service image

/-- An image that requests something is rejected or served. -/
theorem rejects_or_serves_of_requests {message : Message} {header : FrameHeader} {payload : Bytes} (service : Service)
    (hr : Requests image message header payload) : (∃ code, Rejects service image code) ∨ Serves service image := by
  cases hc : service.findCommand header.value with
  | none => exact .inl ⟨_, .unknownCommand hr hc⟩
  | some command =>
    cases hall : command.buffers.all (·.isMet message) with
    | true => exact .inr (.command hr hc (List.all_eq_true.1 hall))
    | false =>
      obtain ⟨spec, hs, hm⟩ := List.all_eq_false.1 hall
      exact .inl ⟨_, .unfitBuffer hr hc hs ((isMet_eq_false_iff _ _).1 (Bool.not_eq_true _ ▸ hm))⟩

/-- Every image is closed, rejected or carried out. -/
theorem closes_or_rejects_or_serves (service : Service) (image : Bytes) :
    Closes image ∨ (∃ code, Rejects service image code) ∨ Serves service image := by
  rcases hd : Message.decode image with e | message
  · exact .inr (.inl ⟨_, .malformed hd⟩)
  by_cases hclose : message.messageType = 2
  · exact .inl ⟨message, hd, hclose⟩
  right
  by_cases hcall : message.messageType ∈ [4, 5, 6, 7]
  case neg => exact .inl ⟨_, .unsupported hd (by grind)⟩
  by_cases hframe : message.HasFrame Wire.requestMagic
  case neg => exact .inl ⟨_, .unframed hd hcall hframe⟩
  obtain ⟨⟨header, payload⟩, hf⟩ := (message.exists_readFrame_iff _).2 hframe
  by_cases hrequest : message.messageType ∈ [4, 6]
  · exact rejects_or_serves_of_requests service ⟨hd, hrequest, hf⟩
  · have hr : Controls image message header payload := ⟨hd, by grind, hf⟩
    by_cases hc : header.value ∈ [Wire.cloneObject, Wire.queryPointerBufferSize, Wire.cloneObjectEx]
    · exact .inr (.control hr hc)
    · exact .inl ⟨_, .unknownControl hr hc⟩

/-- What is carried out is answered as its handler ends, if it has one. -/
theorem dispatchWith_of_serves (h : Serves (s.service entry.service) image) :
    Answers (d.outcome? handlers entry client image s) (d.dispatchWith handlers entry client image s).1 := by
  cases h with
  | @command message header payload command hr hc hm =>
    have ha : accepts s entry.service (message.requestOf header payload) = true := accepts_of_met hc hm
    obtain ⟨label, hrun⟩ := dispatchRequest_of_accepts d handlers client ha
    rw [dispatchWith_of_command (commandRequest?_of_requests hr), hrun, outcome?_of_command (commandRequest?_of_requests hr), handled?,
      if_pos ha]
    exact carryOut_answers _ _ _ _ _
  | control hr hc =>
    rw [dispatchWith_of_controls hr, outcome?_of_no_command (commandRequest?_of_controls hr)]
    exact dispatchControl_answers _ _ _ _ _

/-- An image is classified: `handled` is how the handler of its command ended, if one ran. -/
structure Classifies (service : Service) (image : Bytes) (handled : Option (Except HandlerFailure Unit)) (s : Machine)
    (answer : Dispatched) (s' : Machine) : Prop where
  /-- A request to close has an empty response. -/
  closed : Closes image → answer = { close := true } ∧ s' = s
  /-- A rejected image gets the code that says why and opens no session. No handler runs, and nothing but the journal changes. -/
  rejected : ∀ code, Rejects service image code → answer = .failure code ∧ handled = none ∧ ∃ journal, s' = { s with journal }
  /-- Every image is a request to close, rejected, or carried out. -/
  exhaustive : Closes image ∨ (∃ code, Rejects service image code) ∨ Serves service image
  /-- All other images have a response that can be read, with the code of the rejection or of the failure. -/
  told : ¬Closes image → ∃ code, Tells answer.response code ∧ (∀ reason, Rejects service image reason → code = reason) ∧
    ∀ failure, handled = some (.error failure) → code = failure.code
  /-- The session ends only on request, or if the handler is corrupted. -/
  close : answer.close = true ↔ Closes image ∨ ∃ failure, handled = some (.error failure) ∧ failure.corrupts = true

/-- Every byte string is classified, whatever the commands of services do. -/
theorem dispatchWith_classifies (d : Dispatcher) (handlers : Handlers) (entry : SessionEntry) (client : RecordId) (image : Bytes)
    (s : Machine) : Classifies (s.service entry.service) image (d.outcome? handlers entry client image s) s
      (d.dispatchWith handlers entry client image s).1 (d.dispatchWith handlers entry client image s).2 := by
  have hclosed (h : Closes image) : d.dispatchWith handlers entry client image s = ({ close := true }, s) := dispatchWith_of_closes h
  have hrejected (code : ResultCode) (h : Rejects (s.service entry.service) image code) :
      (d.dispatchWith handlers entry client image s).1 = .failure code ∧ d.outcome? handlers entry client image s = none ∧
        ∃ journal, (d.dispatchWith handlers entry client image s).2 = { s with journal } := by
    obtain ⟨hnone, journal, hrun⟩ := dispatchWith_of_rejects h
    rw [hrun]
    exact ⟨rfl, hnone, journal, rfl⟩
  have hcases := closes_or_rejects_or_serves (s.service entry.service) image
  have hanswers (h : ¬Closes image) :
      Answers (d.outcome? handlers entry client image s) (d.dispatchWith handlers entry client image s).1 := by
    rcases hcases.resolve_left h with ⟨code, hr⟩ | hserves
    · rw [(hrejected code hr).1, (hrejected code hr).2.1]
      exact answers_failure code
    · exact dispatchWith_of_serves hserves
  constructor
  case closed =>
    intro h
    rw [hclosed h]
    exact ⟨rfl, rfl⟩
  case rejected => exact hrejected
  case exhaustive => exact hcases
  case told =>
    intro h
    obtain ⟨code, htells, hfailure⟩ := (hanswers h).response
    refine ⟨code, htells, fun reason hr => ?_, hfailure⟩
    rw [(hrejected reason hr).1] at htells
    exact htells.eq_of_bare
  case close =>
    by_cases h : Closes image
    · rw [hclosed h]
      exact iff_of_true rfl (.inl h)
    · rw [(hanswers h).close, or_iff_right h]

end Dispatcher

end Microkernel
