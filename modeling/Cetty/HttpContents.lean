import Cetty.HttpMessageDecoder
import Cetty.ReplayCalls

/-!
# The content of a decoded message

A decoder uses one message object for all messages and clears it for each. The content is set again
on every path through the header state but one, which a response takes whose status allows no
content.
-/

namespace Cetty

open CLocale MachineInt

namespace HttpMessage

def isRequest (message : HttpMessage) : Bool :=
  match message.start with
  | .request _ _ => true
  | .response _ => false

end HttpMessage

namespace HttpMessageDecoder

/-- The status allows no content, or the length is zero, or it is a request without a length. -/
def bodiless (message : HttpMessage) : Bool :=
  isContentAlwaysEmpty message || HttpHeaders.getContentLength message (-1) = 0 ||
    (HttpHeaders.getContentLength message (-1) = -1 && message.isRequest)

/-- What an encoder and the handlers rely on. -/
def Usable (message : HttpMessage) : Prop :=
  ∃ content, message.content = some content ∧
    (message.isChunked = true ∨ bodiless message = true → content.readable = false)

section Frames

variable {Value : Type}

/-- The program touches neither the fields nor the state. -/
def Same (program : Decode Value) : Prop :=
  ∀ fields state, Keeps (fun context => context.fields = fields ∧ context.state = state) program

namespace Same

theorem leads {program : Decode Value} (same : Same program)
    {assertion : HttpMessageDecoder → Int → Prop} :
    Leads (ReplayingDecoder.Within assertion) program
      (fun _ => ReplayingDecoder.Within assertion) (ReplayingDecoder.Within assertion) := by
  intro context holds
  have kept := same context.fields context.state
  cases ran : program.run context with
  | ok value after =>
      obtain ⟨fields, state⟩ := kept.after_ok ⟨rfl, rfl⟩ ran
      unfold ReplayingDecoder.Within
      dsimp only
      rw [fields, state]
      exact holds
  | error stop after =>
      obtain ⟨fields, state⟩ := kept.after_error ⟨rfl, rfl⟩ ran
      unfold ReplayingDecoder.Within
      dsimp only
      rw [fields, state]
      exact holds

theorem pure (value : Value) : Same (Pure.pure value : Decode Value) :=
  fun _ _ => Keeps.pure value

theorem throw (stop : Stop) : Same (throw stop : Decode Value) := fun _ _ => Keeps.throw stop

theorem bind {Next : Type} {first : Decode Value} {next : Value → Decode Next}
    (now : Same first) (later : ∀ value, Same (next value)) : Same (first >>= next) :=
  fun fields state => Keeps.bind (now fields state) fun value => later value fields state

theorem ite {condition : Prop} [Decidable condition] {yes no : Decode Value}
    (positive : Same yes) (negative : Same no) : Same (if condition then yes else no) :=
  fun fields state => Keeps.ite (fun _ => positive fields state) fun _ => negative fields state

theorem get {Result : Type} (look : ReplayContext HttpMessageDecoder → Decode Result)
    (later : ∀ context, Same (look context)) : Same (MonadState.get >>= look) :=
  fun fields state => Keeps.bind Keeps.get fun context => later context fields state

theorem call (result : Except Stop Value) : Same (Cetty.call result : Decode Value) :=
  fun _ _ => Keeps.call result

theorem onReplayable (program : ReplayM Value) : Same (onReplayable program : Decode Value) :=
  fun _ _ => Keeps.focus program fun _ _ holds => holds

theorem onCumulated (program : BufferM Value) : Same (onCumulated program : Decode Value) :=
  onReplayable _

theorem readSlice (length : Int) : Same (readSlice length) := onReplayable _

theorem needMoreBytes : Same needMoreBytes := get _ fun _ => pure _

theorem rounds : Same rounds := get _ fun _ => pure _

theorem theMessage : Same theMessage := by
  refine get _ fun context => ?_
  dsimp only
  split
  · exact pure _
  · exact throw _

theorem dataAtReader : Same dataAtReader :=
  get _ fun _ => bind (call _) fun _ => bind (call _) fun _ => pure _

theorem onArray (program : Memory Value) : Same (onArray program) :=
  get _ fun _ => bind (call _) fun _ _ _ => Keeps.focus program fun _ _ holds => holds

theorem readByte : Same readByte := bind (onReplayable _) fun _ => pure _

theorem readUnsignedByte : Same readUnsignedByte := bind (onReplayable _) fun _ => pure _

theorem skipLoop (rounds : Nat) : Same (skipLoop rounds) := by
  induction rounds with
  | zero => exact throw _
  | succ rounds induction =>
      refine bind readUnsignedByte fun c => bind needMoreBytes fun more => ite (pure _) ?_
      refine ite ?_ induction
      exact get _ fun _ => bind (onCumulated _) fun _ => pure _

theorem skipControlCharacters : Same skipControlCharacters :=
  bind rounds fun _ => skipLoop _

theorem readLineLoop (maxLineLength : Int) (rounds : Nat) (size : Int) :
    Same (readLineLoop maxLineLength rounds size) := by
  induction rounds generalizing size with
  | zero => exact throw _
  | succ rounds induction =>
      refine bind readByte fun c => bind needMoreBytes fun more => ite (pure _) (ite ?_ ?_)
      · refine bind readByte fun c => bind needMoreBytes fun more => ite (pure _) (ite (pure _) ?_)
        exact induction size
      · exact ite (pure _) (ite (throw _) (induction (size + 1)))

theorem readLine (maxLineLength : Int) : Same (readLine maxLineLength) := by
  refine bind dataAtReader fun data => bind rounds fun count =>
    bind (readLineLoop maxLineLength _ 0) fun result => ite ?_ (pure _)
  exact bind (onArray _) fun _ => pure _

theorem readHeaderLoop (limits : HttpLimits) (rounds : Nat) (headerSize strSize : Int) :
    Same (readHeaderLoop limits rounds headerSize strSize) := by
  induction rounds generalizing headerSize strSize with
  | zero => exact throw _
  | succ rounds induction =>
      refine bind readByte fun c => bind needMoreBytes fun more => ite (pure _) (ite ?_ ?_)
      · refine bind readByte fun c => bind needMoreBytes fun more => ite (pure _) (ite (pure _) ?_)
        exact ite (throw _) (induction _ _)
      · exact ite (pure _) (ite (throw _) (induction _ _))

theorem readPart (limits : HttpLimits) : Same (readPart limits) :=
  get _ fun _ => ite (bind (readSlice _) fun _ => pure _) (bind (readSlice _) fun _ => pure _)

end Same

/-- The fields without the sizes and without the headers of the message. -/
def core (fields : HttpMessageDecoder) : HttpMessageDecoder :=
  { fields with
    chunkSize := 0
    headerSize := 0
    object := fields.object.map fun message => { message with header := .fresh } }

/-- The program touches nothing but the sizes and the headers. -/
def Alike (program : Decode Value) : Prop :=
  ∀ fields state,
    Keeps (fun context => core context.fields = fields ∧ context.state = state) program

namespace Alike

theorem of_same {program : Decode Value} (same : Same program) : Alike program := by
  intro fields state
  exact @Same.leads Value program same fun held now => core held = fields ∧ now = state

theorem pure (value : Value) : Alike (Pure.pure value : Decode Value) := of_same (Same.pure value)

theorem bind {Next : Type} {first : Decode Value} {next : Value → Decode Next}
    (now : Alike first) (later : ∀ value, Alike (next value)) : Alike (first >>= next) :=
  fun fields state => Keeps.bind (now fields state) fun value => later value fields state

theorem ite {condition : Prop} [Decidable condition] {yes no : Decode Value}
    (positive : Alike yes) (negative : Alike no) : Alike (if condition then yes else no) :=
  fun fields state => Keeps.ite (fun _ => positive fields state) fun _ => negative fields state

theorem get {Result : Type} (look : ReplayContext HttpMessageDecoder → Decode Result)
    (later : ∀ context, Alike (look context)) : Alike (MonadState.get >>= look) :=
  fun fields state => Keeps.bind Keeps.get fun context => later context fields state

theorem update {change : HttpMessageDecoder → HttpMessageDecoder}
    (apart : ∀ fields, core (change fields) = core fields) : Alike (update change) := by
  intro fields state
  apply Keeps.modify
  rintro context ⟨same, now⟩
  exact ⟨(apart context.fields).trans same, now⟩

theorem readHeader (limits : HttpLimits) : Alike (readHeader limits) := by
  refine bind (of_same Same.dataAtReader) fun data => bind (of_same Same.rounds) fun count =>
    get _ fun context => bind (of_same (Same.readHeaderLoop limits _ _ _)) fun line => ?_
  cases line with
  | none => exact pure _
  | some sizes =>
      exact bind (of_same (Same.onArray _)) fun _ => bind (update fun _ => rfl) fun _ => pure _

/-- What does not depend on the sizes and the headers stays as it is. -/
theorem leads {program : Decode Value} (alike : Alike program)
    {assertion : HttpMessageDecoder → Int → Prop}
    (calm : ∀ fields other state, core fields = core other → assertion fields state →
      assertion other state) :
    Leads (ReplayingDecoder.Within assertion) program
      (fun _ => ReplayingDecoder.Within assertion) (ReplayingDecoder.Within assertion) := by
  intro context holds
  have kept := alike (core context.fields) context.state
  have carried : ∀ after : ReplayContext HttpMessageDecoder,
      core after.fields = core context.fields → after.state = context.state →
      ReplayingDecoder.Within assertion after := by
    intro after same now
    have moved := calm context.fields after.fields context.state same.symm holds
    unfold ReplayingDecoder.Within
    rw [now]
    exact moved
  cases ran : program.run context with
  | ok value after =>
      obtain ⟨same, now⟩ := kept.after_ok ⟨rfl, rfl⟩ ran
      exact carried after same now
  | error stop after =>
      obtain ⟨same, now⟩ := kept.after_error ⟨rfl, rfl⟩ ran
      exact carried after same now

end Alike

theorem theMessage_run {context : ReplayContext HttpMessageDecoder} {message : HttpMessage}
    (pointed : context.fields.message = true) (made : context.fields.object = some message) :
    theMessage.run context = .ok message context := by
  unfold theMessage
  rw [run_bind_get]
  dsimp only
  rw [pointed, made]
  rfl

theorem theMessage_cases (context : ReplayContext HttpMessageDecoder) :
    (∃ message, context.fields.message = true ∧ context.fields.object = some message ∧
      theMessage.run context = .ok message context) ∨
    theMessage.run context = .error .outOfBounds context := by
  unfold theMessage
  rw [run_bind_get]
  dsimp only
  split
  · rename_i message pointed made
    exact Or.inl ⟨message, pointed, made, rfl⟩
  · exact Or.inr rfl

/-- A change of the message is made on the one the pointer is set to, or not at all. -/
theorem onMessage_cases (change : HttpMessage → Except Stop HttpMessage)
    (context : ReplayContext HttpMessageDecoder) :
    (∃ message changed, context.fields.message = true ∧ context.fields.object = some message ∧
      change message = .ok changed ∧ (onMessage change).run context =
        .ok () { context with fields := { context.fields with object := some changed } }) ∨
    ∃ stop, (onMessage change).run context = .error stop context := by
  unfold onMessage
  rcases theMessage_cases context with ⟨message, pointed, made, found⟩ | missing
  · rw [run_bind_ok _ found]
    cases changes : change message with
    | error stop => exact Or.inr ⟨stop, rfl⟩
    | ok changed => exact Or.inl ⟨message, changed, pointed, made, changes, rfl⟩
  · exact Or.inr ⟨.outOfBounds, run_bind_error _ missing⟩

namespace Alike

theorem addHeader (name value : Text) :
    Alike (onMessage fun message => message.addHeader name value) := by
  rintro fields state context ⟨same, now⟩
  rcases onMessage_cases (fun message => message.addHeader name value) context with
    ⟨message, changed, _, made, changes, ran⟩ | ⟨stop, ran⟩
  · rw [ran]
    refine ⟨?_, now⟩
    obtain ⟨header, _, whole⟩ := ok_of_bind changes
    cases whole
    rw [← same]
    unfold core
    rw [made]
    rfl
  · rw [ran]
    exact ⟨same, now⟩

theorem addRead (name value : FastString) (multiValueStr : Text) :
    Alike (addRead name value multiValueStr) := by
  refine ite ?_ (pure _)
  refine bind (of_same (Same.onArray _)) fun name => ?_
  refine ite (bind (pure _) fun _ => addHeader _ _) ?_
  exact bind (of_same (Same.onArray _)) fun _ => addHeader _ _

theorem readHeadersLoop (limits : HttpLimits) (rounds : Nat) (line name value : FastString)
    (multiValueStr : Text) : Alike (readHeadersLoop limits rounds line name value multiValueStr) := by
  induction rounds generalizing line name value multiValueStr with
  | zero => exact of_same (Same.throw _)
  | succ rounds induction =>
      refine ite ?_ ?_
      · exact bind (addRead _ _ _) fun _ => pure _
      · refine bind (of_same (Same.onArray _)) fun firstChar => ite ?_ ?_
        · refine bind (of_same (Same.onArray _)) fun trimedLine =>
            bind (of_same (Same.onArray _)) fun first =>
            bind (of_same (Same.onArray _)) fun second => bind (readHeader limits) fun line =>
            bind (of_same Same.needMoreBytes) fun more => ite (pure _) ?_
          exact induction _ _ _ _
        · refine bind (addRead _ _ _) fun _ => bind (of_same (Same.onArray _)) fun split =>
            bind (readHeader limits) fun line =>
            bind (of_same Same.needMoreBytes) fun more => ite (pure _) ?_
          exact induction _ _ _ _

theorem readTrailerLoop (limits : HttpLimits) (rounds : Nat) (line lastHeader : FastString)
    (trailer : DefaultHttpHeader) : Alike (readTrailerLoop limits rounds line lastHeader trailer) := by
  induction rounds generalizing line lastHeader trailer with
  | zero => exact of_same (Same.throw _)
  | succ rounds induction =>
      have rest : ∀ (lastHeader : FastString) (trailer : DefaultHttpHeader), Alike (do
          let line ← HttpMessageDecoder.readHeader limits
          if line.length = 0 then Pure.pure trailer
          else HttpMessageDecoder.readTrailerLoop limits rounds line lastHeader trailer) := by
        intro lastHeader trailer
        exact bind (readHeader limits) fun line => ite (pure _) (induction _ _ _)
      refine bind (of_same (Same.onArray _)) fun firstChar => ite ?_ ?_
      · refine bind (of_same (Same.onArray _)) fun name => ite ?_ (rest _ _)
        exact bind (of_same (Same.onArray _)) fun _ => rest _ _
      · refine bind (of_same (Same.onArray _)) fun split => ite ?_ (rest _ _)
        refine bind (of_same (Same.onArray _)) fun name =>
          bind (of_same (Same.onArray _)) fun value =>
          bind (of_same (Same.call _)) fun added => rest _ _

theorem readHeaders (limits : HttpLimits) : Alike (readHeaders limits) := by
  refine bind (readHeader limits) fun line => bind (update fun _ => rfl) fun _ =>
    bind (of_same Same.needMoreBytes) fun more => ite (pure _) ?_
  refine bind (of_same Same.rounds) fun count => bind (readHeadersLoop limits _ _ _ _ _) fun whole =>
    ite ?_ (pure _)
  exact bind (of_same Same.theMessage) fun _ => pure _

theorem readTrailingHeaders (limits : HttpLimits) : Alike (readTrailingHeaders limits) := by
  refine bind (update fun _ => rfl) fun _ => bind (readHeader limits) fun line => ite (pure _) ?_
  exact bind (of_same Same.rounds) fun count => bind (readTrailerLoop limits _ _ _ _) fun _ => pure _

end Alike

end Frames

section Invariant

variable {Value : Type} {decodingRequest : Bool}

/-- An object that a handler can use. -/
def UsableObject : HttpObject → Prop
  | .message message => Usable message
  | .chunk _ => True
  | .null => False

structure Base (decodingRequest : Bool) (fields : HttpMessageDecoder) : Prop where
  usable : ∀ object ∈ fields.published, UsableObject object
  kind : ∀ message, fields.object = some message → message.isRequest = decodingRequest

def Holding (message : HttpMessage) : Prop :=
  ∃ content, message.content = some content ∧ content.readable = false

/-- The states behind a message that has been announced. -/
def chunkStates : List Int :=
  [READ_VARIABLE_LENGTH_CONTENT_AS_CHUNKS, READ_FIXED_LENGTH_CONTENT_AS_CHUNKS, READ_CHUNK_SIZE,
    READ_CHUNKED_CONTENT, READ_CHUNKED_CONTENT_AS_CHUNKS, READ_CHUNK_DELIMITER, READ_CHUNK_FOOTER]

/-- Between two messages, in the headers of one, in front of its content, behind its announcement. -/
inductive Posed (fields : HttpMessageDecoder) : Int → Prop where
  | idle {state : Int} (between : state = SKIP_CONTROL_CHARS ∨ state = READ_INITIAL)
      (settled : fields.content = none) : Posed fields state
  | header {message : HttpMessage} (settled : fields.content = none)
      (pointed : fields.message = true) (made : fields.object = some message) :
      Posed fields READ_HEADER
  | body {state : Int} {message : HttpMessage}
      (before : state = READ_VARIABLE_LENGTH_CONTENT ∨ state = READ_FIXED_LENGTH_CONTENT)
      (pointed : fields.message = true) (made : fields.object = some message)
      (bodied : bodiless message = false) : Posed fields state
  | chunks {state : Int} {message : HttpMessage} (behind : state ∈ chunkStates)
      (settled : fields.content = none) (pointed : fields.message = true)
      (made : fields.object = some message) (holding : Holding message) : Posed fields state

structure Ready (decodingRequest : Bool) (fields : HttpMessageDecoder) (state : Int) : Prop where
  base : Base decodingRequest fields
  posed : Posed fields state

/-- Assertions about the fields and the state. -/
abbrev Within (assertion : HttpMessageDecoder → Int → Prop) :
    ReplayContext HttpMessageDecoder → Prop :=
  ReplayingDecoder.Within assertion

variable {before after stopped : HttpMessageDecoder → Int → Prop}

theorem update_leads {change : HttpMessageDecoder → HttpMessageDecoder}
    (holds : ∀ fields state, before fields state → after (change fields) state) :
    Leads (Within before) (update change) (fun _ => Within after) (Within stopped) :=
  Leads.modify fun context start => holds context.fields context.state start

theorem checkpoint_same : Same checkpoint := by
  intro fields state
  apply Keeps.modify
  intro context same
  exact same

theorem checkpointAt_leads {next : Int}
    (holds : ∀ fields state, before fields state → after fields next) :
    Leads (Within before) (checkpointAt next) (fun _ => Within after) (Within stopped) := by
  intro context start
  exact holds context.fields context.state start

theorem publish_leads {object : HttpObject}
    (holds : ∀ fields state, before fields state →
      after { fields with published := fields.published ++ [object] } state) :
    Leads (Within before) (publish object) (fun _ => Within after) (Within stopped) := by
  intro context start
  exact holds context.fields context.state start

theorem onMessage_leads {change : HttpMessage → Except Stop HttpMessage}
    (holds : ∀ fields state message changed, before fields state → fields.object = some message →
      change message = .ok changed → after { fields with object := some changed } state)
    (stops : ∀ fields state, before fields state → stopped fields state) :
    Leads (Within before) (onMessage change) (fun _ => Within after) (Within stopped) := by
  intro context start
  rcases onMessage_cases change context with ⟨message, changed, _, made, changes, ran⟩ | ⟨stop, ran⟩
  · rw [ran]
    exact holds context.fields context.state message changed start made changes
  · rw [ran]
    exact stops context.fields context.state start

theorem Base.publish {fields : HttpMessageDecoder} (base : Base decodingRequest fields)
    {object : HttpObject} (usable : UsableObject object) :
    Base decodingRequest { fields with published := fields.published ++ [object] } := by
  refine ⟨fun other among => ?_, base.kind⟩
  rcases List.mem_append.mp among with earlier | last
  · exact base.usable other earlier
  · rw [List.mem_singleton.mp last]
    exact usable

/-- A message whose content can be set without an exception. -/
theorem setContent_cases (message : HttpMessage) (content : ChannelBuffer) :
    message.setContent content = .ok { message with content := some content } ∧
        (message.isChunked = true → content.readable = false) ∨
      (∃ stop, message.setContent content = .error stop) ∧ content.readable = true := by
  unfold HttpMessage.setContent
  cases readable : content.readable with
  | false => exact Or.inl ⟨rfl, fun _ => rfl⟩
  | true =>
      cases chunked : message.isChunked with
      | false => exact Or.inl ⟨rfl, fun impossible => absurd impossible Bool.false_ne_true⟩
      | true => exact Or.inr ⟨⟨_, rfl⟩, rfl⟩

theorem setChunked_announces {message changed : HttpMessage}
    (announced : message.setChunked true = .ok changed) :
    changed.content = some .emptyBuffer ∧ changed.isRequest = message.isRequest ∧ Usable changed := by
  have same : changed = { message with chunked := true, content := some .emptyBuffer } :=
    (Except.ok.inj announced).symm
  rw [same]
  exact ⟨rfl, rfl, .emptyBuffer, rfl, fun _ => rfl⟩

/-- What the last part of a message leaves to be done. -/
structure Complete (decodingRequest : Bool) (fields : HttpMessageDecoder) (state : Int) : Prop where
  base : Base decodingRequest fields
  pointed : fields.message = true
  due : ∃ message, fields.object = some message ∧
    ((∃ content, fields.content = some content ∧ (content.readable = false ∨
        bodiless message = false ∧
          (state = READ_VARIABLE_LENGTH_CONTENT ∨ state = READ_FIXED_LENGTH_CONTENT))) ∨
      fields.content = none ∧ Holding message)

/-- The message is passed on and let go. -/
theorem release_run {context : ReplayContext HttpMessageDecoder} {message : HttpMessage}
    (pointed : context.fields.message = true) (made : context.fields.object = some message) :
    ∃ after, release.run context = .ok (.message message) after ∧
      after.fields = { context.fields with message := false } ∧
      after.state = SKIP_CONTROL_CHARS := by
  obtain ⟨fields, state, checkedPoint, cumulated, replayable, fired⟩ := context
  obtain ⟨chunkSize, headerSize, object, pointer, content, published⟩ := fields
  dsimp only at pointed made
  subst pointed
  subst made
  exact ⟨_, rfl, rfl, rfl⟩

/-- What comes with the message that is let go. -/
theorem release_leads {message : HttpMessage} (usable : Usable message) :
    Leads (Within fun fields _ => Base decodingRequest fields ∧ fields.message = true ∧
        fields.object = some message ∧ fields.content = none) release
      (fun object => Within fun fields state => UsableObject object ∧
        Base decodingRequest fields ∧ fields.content = none ∧ state = SKIP_CONTROL_CHARS)
      (Within (Ready decodingRequest)) := by
  rintro context ⟨base, pointed, made, settled⟩
  obtain ⟨after, released, fields, state⟩ := release_run pointed made
  rw [released]
  refine ⟨usable, ?_, ?_, state⟩
  · rw [fields]
    exact ⟨base.usable, base.kind⟩
  · rw [fields]
    exact settled

theorem reset_leads :
    Leads (Within (Complete decodingRequest)) reset
      (fun object => Within fun fields state => UsableObject object ∧
        Base decodingRequest fields ∧ fields.content = none ∧ state = SKIP_CONTROL_CHARS)
      (Within (Ready decodingRequest)) := by
  rintro context ⟨base, pointed, message, made, due⟩
  unfold reset
  rw [run_bind_get]
  rcases due with ⟨content, kept, allowed⟩ | ⟨settled, holding⟩
  · rw [kept]
    dsimp only
    have found : theMessage.run context = .ok message context := theMessage_run pointed made
    rcases setContent_cases message content with ⟨sets, agrees⟩ | ⟨⟨stop, refuses⟩, readable⟩
    · have usable : Usable { message with content := some content } := by
        refine ⟨content, rfl, ?_⟩
        rintro (chunked | bodyless)
        · exact agrees chunked
        · rcases allowed with empty | ⟨bodied, _⟩
          · exact empty
          · exact absurd (bodyless.symm.trans bodied) Bool.noConfusion
      have changed : (onMessage fun message => message.setContent content).run context =
          .ok () { context with fields := { context.fields with
            object := some { message with content := some content } } } := by
        unfold onMessage
        rw [run_bind_ok _ found]
        dsimp only
        rw [sets]
        rfl
      rw [run_bind_ok _ changed]
      refine release_leads usable { context with fields := { context.fields with
        object := some { message with content := some content }, content := none } } ?_
      refine ⟨⟨base.usable, ?_⟩, pointed, rfl, rfl⟩
      intro other same
      cases same
      exact base.kind message made
    · have refused : (onMessage fun message => message.setContent content).run context =
          .error stop context := by
        unfold onMessage
        rw [run_bind_ok _ found]
        dsimp only
        rw [refuses]
        rfl
      rw [run_bind_error _ refused]
      rcases allowed with empty | ⟨bodied, place⟩
      · exact absurd (readable.symm.trans empty) Bool.noConfusion
      · exact ⟨base, .body place pointed made bodied⟩
  · rw [settled]
    obtain ⟨content, filled, empty⟩ := holding
    exact release_leads ⟨content, filled, fun _ => empty⟩ context ⟨base, pointed, made, settled⟩

namespace Posed

variable {fields : HttpMessageDecoder} {state : Int}

theorem of_idle (posed : Posed fields state)
    (between : state = SKIP_CONTROL_CHARS ∨ state = READ_INITIAL) : fields.content = none := by
  cases posed with
  | idle _ settled => exact settled
  | header settled _ _ => exact settled
  | body before _ _ _ =>
      rcases before with rfl | rfl
      · exact absurd between (by decide)
      · exact absurd between (by decide)
  | chunks _ settled _ _ _ => exact settled

theorem of_header (posed : Posed fields READ_HEADER) :
    fields.content = none ∧ fields.message = true ∧ ∃ message, fields.object = some message := by
  generalize place : READ_HEADER = state at posed
  cases posed with
  | idle between _ =>
      rw [← place] at between
      exact absurd between (by decide)
  | header settled pointed made => exact ⟨settled, pointed, _, made⟩
  | body before _ _ _ =>
      rw [← place] at before
      exact absurd before (by decide)
  | chunks behind _ _ _ _ =>
      rw [← place] at behind
      exact absurd behind (by decide)

theorem of_body (posed : Posed fields state)
    (before : state = READ_VARIABLE_LENGTH_CONTENT ∨ state = READ_FIXED_LENGTH_CONTENT) :
    fields.message = true ∧ ∃ message, fields.object = some message ∧ bodiless message = false := by
  cases posed with
  | idle between _ =>
      rcases between with rfl | rfl
      · exact absurd before (by decide)
      · exact absurd before (by decide)
  | header _ _ _ => exact absurd before (by decide)
  | body _ pointed made bodied => exact ⟨pointed, _, made, bodied⟩
  | chunks behind _ _ _ _ =>
      rcases before with rfl | rfl
      · exact absurd behind (by decide)
      · exact absurd behind (by decide)

theorem of_chunks (posed : Posed fields state) (behind : state ∈ chunkStates) :
    fields.content = none ∧ fields.message = true ∧
      ∃ message, fields.object = some message ∧ Holding message := by
  cases posed with
  | idle between _ =>
      rcases between with rfl | rfl
      · exact absurd behind (by decide)
      · exact absurd behind (by decide)
  | header _ _ _ => exact absurd behind (by decide)
  | body before _ _ _ =>
      rcases before with rfl | rfl
      · exact absurd behind (by decide)
      · exact absurd behind (by decide)
  | chunks _ settled pointed made holding => exact ⟨settled, pointed, _, made, holding⟩

end Posed

theorem Base.alike {fields other : HttpMessageDecoder} (base : Base decodingRequest fields)
    (published : other.published = fields.published) (object : other.object = fields.object) :
    Base decodingRequest other := by
  refine ⟨?_, ?_⟩
  · rw [published]
    exact base.usable
  · rw [object]
    exact base.kind

/-- Whether it returns or throws, the program ends where the decoder is ready. -/
abbrev Readies (decodingRequest : Bool) (start : HttpMessageDecoder → Int → Prop)
    {Result : Type} (program : Decode Result) : Prop :=
  Leads (Within start) program (fun _ => Within (Ready decodingRequest))
    (Within (Ready decodingRequest))

theorem publishReset_leads :
    Readies decodingRequest (Complete decodingRequest) (do publish (← reset)) := by
  refine Leads.bind reset_leads fun object => publish_leads ?_
  rintro fields state ⟨usable, base, settled, idle⟩
  exact ⟨base.publish usable, .idle (Or.inl idle) settled⟩

theorem publishChunk_leads (chunk : HttpChunk) :
    Readies decodingRequest (Ready decodingRequest) (publishChunk chunk) := by
  apply publish_leads
  rintro fields state ⟨base, posed⟩
  refine ⟨base.publish trivial, ?_⟩
  cases posed with
  | idle between settled => exact .idle between settled
  | header settled pointed made => exact .header settled pointed made
  | body before pointed made bodied => exact .body before pointed made bodied
  | chunks behind settled pointed made holding =>
      exact .chunks behind settled pointed made holding

/-- Chunks are published behind a message that has been let go. -/
theorem resetQuietly_leads {rest : Decode ChannelMessage}
    (later : Readies decodingRequest (Ready decodingRequest) rest) :
    Readies decodingRequest (Complete decodingRequest) (reset >>= fun _ => rest) := by
  refine Leads.bind reset_leads fun object => later.weaken ?_
  rintro context ⟨_, base, settled, idle⟩
  exact ⟨base, .idle (Or.inl idle) settled⟩

/-- Behind an announcement the message is complete whenever it is let go. -/
theorem complete_of_chunks {fields : HttpMessageDecoder} {state : Int}
    (ready : Ready decodingRequest fields state) (behind : state ∈ chunkStates) :
    Complete decodingRequest fields state := by
  obtain ⟨settled, pointed, message, made, holding⟩ := ready.posed.of_chunks behind
  exact ⟨ready.base, pointed, message, made, Or.inr ⟨settled, holding⟩⟩

theorem publishLast_leads (chunk : HttpChunk) :
    Readies decodingRequest (Complete decodingRequest) (publishLast chunk) := by
  apply resetQuietly_leads
  refine Leads.ite (fun _ => publishChunk_leads chunk) fun _ => ?_
  exact Leads.bind (publishChunk_leads chunk) fun _ =>
    Leads.bind (publishChunk_leads .LAST_CHUNK) fun _ => Leads.pure fun _ holds => holds

section States

variable {limits : HttpLimits} {subclass : HttpSubclass}

/-- In one of the states of a kind. -/
def At (decodingRequest : Bool) (states : Int → Prop) (fields : HttpMessageDecoder) (state : Int) :
    Prop :=
  Ready decodingRequest fields state ∧ states state

theorem at_ready {states : Int → Prop} (context : ReplayContext HttpMessageDecoder)
    (holds : Within (At decodingRequest states) context) : Within (Ready decodingRequest) context :=
  holds.1

/-- A program that leaves the fields and the state alone, in front of another. -/
theorem same_bind {first : Decode Value} (same : Same first) {next : Value → Decode ChannelMessage}
    {start : HttpMessageDecoder → Int → Prop}
    (ready : ∀ fields state, start fields state → Ready decodingRequest fields state)
    (later : ∀ value, Readies decodingRequest start (next value)) :
    Readies decodingRequest start (first >>= next) := by
  refine Leads.bind (same.leads.strengthen (fun _ _ holds => holds) ?_) later
  intro context holds
  exact ready context.fields context.state holds

theorem finished {start : HttpMessageDecoder → Int → Prop}
    (ready : ∀ fields state, start fields state → Ready decodingRequest fields state)
    (message : ChannelMessage) :
    Readies decodingRequest start (pure message : Decode ChannelMessage) :=
  Leads.pure fun context holds => ready context.fields context.state holds

theorem skipState_leads :
    Readies decodingRequest (At decodingRequest (· = SKIP_CONTROL_CHARS)) skipState := by
  refine same_bind Same.skipControlCharacters (fun _ _ holds => holds.1) fun found => ?_
  refine Leads.ite (fun _ => ?_) fun _ => ?_
  · refine Leads.bind (checkpointAt_leads ?_) fun _ => finished (fun _ _ holds => holds) _
    rintro fields state ⟨ready, place⟩
    exact ⟨ready.base, .idle (Or.inr rfl) (ready.posed.of_idle (Or.inl place))⟩
  · exact same_bind checkpoint_same (fun _ _ holds => holds.1) fun _ =>
      finished (fun _ _ holds => holds.1) _

theorem get_bind {next : ReplayContext HttpMessageDecoder → Decode Value}
    {start : HttpMessageDecoder → Int → Prop}
    {finish : Value → ReplayContext HttpMessageDecoder → Prop}
    (later : ∀ context, Leads (Within start) (next context) finish
      (Within (Ready decodingRequest))) :
    Leads (Within start) (MonadState.get >>= next) finish (Within (Ready decodingRequest)) :=
  fun context holds => later context context holds

/-- The content of a message that is about to be let go has been read. -/
def Fetched (decodingRequest : Bool) (fields : HttpMessageDecoder) (state : Int) : Prop :=
  Complete decodingRequest fields state ∧ Ready decodingRequest fields state

theorem fetched_of_body {fields : HttpMessageDecoder} {state : Int} (content : ChannelBuffer)
    (ready : Ready decodingRequest fields state)
    (place : state = READ_VARIABLE_LENGTH_CONTENT ∨ state = READ_FIXED_LENGTH_CONTENT) :
    Fetched decodingRequest { fields with content := some content } state := by
  obtain ⟨pointed, message, made, bodied⟩ := ready.posed.of_body place
  have base : Base decodingRequest { fields with content := some content } :=
    ready.base.alike rfl rfl
  refine ⟨⟨base, pointed, message, made, Or.inl ⟨content, rfl, Or.inr ⟨bodied, place⟩⟩⟩, base, ?_⟩
  exact .body place pointed made bodied

theorem fetched_leads :
    Readies decodingRequest (Fetched decodingRequest) (do publish (← reset)) :=
  publishReset_leads.weaken fun _ holds => holds.1

theorem variableState_leads :
    Readies decodingRequest (At decodingRequest (· = READ_VARIABLE_LENGTH_CONTENT)) variableState := by
  refine get_bind fun context => same_bind (Same.readSlice _) (fun _ _ holds => holds.1)
    fun content => ?_
  refine Leads.bind (update_leads fun fields state holds =>
    fetched_of_body content holds.1 (Or.inl holds.2)) fun _ => ?_
  refine same_bind Same.needMoreBytes (fun _ _ holds => holds.2) fun more => ?_
  exact Leads.ite (fun _ => finished (fun _ _ holds => holds.2) _) fun _ => fetched_leads

theorem fixedState_leads :
    Readies decodingRequest (At decodingRequest (· = READ_FIXED_LENGTH_CONTENT)) fixedState := by
  have reads : Leads (Within (At decodingRequest (· = READ_FIXED_LENGTH_CONTENT)))
      readFixedLengthContent (fun _ => Within (Fetched decodingRequest))
      (Within (Ready decodingRequest)) := by
    refine Leads.bind (Same.theMessage.leads.strengthen (fun _ _ holds => holds) at_ready)
      fun message => ?_
    have cleared : ∀ (fields : HttpMessageDecoder) (state : Int),
        At decodingRequest (· = READ_FIXED_LENGTH_CONTENT) fields state →
        At decodingRequest (· = READ_FIXED_LENGTH_CONTENT) { fields with content := none } state := by
      rintro fields state ⟨ready, place⟩
      obtain ⟨pointed, message, made, bodied⟩ := ready.posed.of_body (Or.inr place)
      exact ⟨⟨ready.base.alike rfl rfl, .body (Or.inr place) pointed made bodied⟩, place⟩
    refine Leads.bind (update_leads cleared) fun _ => ?_
    refine Leads.bind ((Same.readSlice _).leads.strengthen (fun _ _ holds => holds) at_ready)
      fun content => ?_
    refine Leads.bind (update_leads fun fields state holds =>
      fetched_of_body content holds.1 (Or.inr holds.2)) fun _ => ?_
    refine Leads.bind (Same.needMoreBytes.leads.strengthen (fun _ _ holds => holds)
      fun _ holds => holds.2) fun more => ?_
    exact Leads.pure fun _ holds => holds
  refine Leads.bind reads fun whole => Leads.ite (fun _ => fetched_leads) fun _ => ?_
  exact finished (fun _ _ holds => holds.2) _

theorem checkpoint_chunks {next : Int} (behind : next ∈ chunkStates) :
    Readies decodingRequest (At decodingRequest (· ∈ chunkStates)) (checkpointAt next) := by
  apply checkpointAt_leads
  rintro fields state ⟨ready, place⟩
  obtain ⟨settled, pointed, message, made, holding⟩ := ready.posed.of_chunks place
  exact ⟨ready.base, .chunks behind settled pointed made holding⟩

theorem resize_leads (size : Int) :
    Leads (Within (At decodingRequest (· ∈ chunkStates)))
      (update fun fields => { fields with chunkSize := size })
      (fun _ => Within (At decodingRequest (· ∈ chunkStates))) (Within (Ready decodingRequest)) := by
  apply update_leads
  rintro fields state ⟨ready, place⟩
  obtain ⟨settled, pointed, message, made, holding⟩ := ready.posed.of_chunks place
  exact ⟨⟨ready.base.alike rfl rfl, .chunks place settled pointed made holding⟩, place⟩

theorem chunks_complete {context : ReplayContext HttpMessageDecoder}
    (holds : Within (At decodingRequest (· ∈ chunkStates)) context) :
    Within (Complete decodingRequest) context :=
  complete_of_chunks holds.1 holds.2

theorem variableChunksState_leads :
    Readies decodingRequest (At decodingRequest (· ∈ chunkStates)) (variableChunksState limits) := by
  refine get_bind fun context => same_bind (Same.readSlice _) (fun _ _ holds => holds.1)
    fun buff => same_bind Same.needMoreBytes (fun _ _ holds => holds.1) fun more => ?_
  refine Leads.ite (fun _ => finished (fun _ _ holds => holds.1) _) fun _ => ?_
  refine get_bind fun context => Leads.ite (fun _ => ?_) fun _ => ?_
  · exact (publishLast_leads _).weaken fun _ holds => chunks_complete holds
  · exact (publishChunk_leads _).weaken fun _ holds => holds.1

theorem fixedChunksState_leads :
    Readies decodingRequest (At decodingRequest (· ∈ chunkStates)) (fixedChunksState limits) := by
  refine same_bind (Same.readPart limits) (fun _ _ holds => holds.1) fun part =>
    same_bind Same.needMoreBytes (fun _ _ holds => holds.1) fun more => ?_
  refine Leads.ite (fun _ => finished (fun _ _ holds => holds.1) _) fun _ => ?_
  refine Leads.bind (resize_leads _) fun _ => Leads.ite (fun _ => ?_) fun _ => ?_
  · exact (publishLast_leads _).weaken fun _ holds => chunks_complete holds
  · exact (publishChunk_leads _).weaken fun _ holds => holds.1

theorem chunkSizeState_leads :
    Readies decodingRequest (At decodingRequest (· ∈ chunkStates)) (chunkSizeState limits) := by
  refine same_bind (Same.readLine _) (fun _ _ holds => holds.1) fun line =>
    same_bind Same.needMoreBytes (fun _ _ holds => holds.1) fun more => ?_
  refine Leads.ite (fun _ => finished (fun _ _ holds => holds.1) _) fun _ => ?_
  refine same_bind (Same.onArray _) (fun _ _ holds => holds.1) fun size =>
    Leads.bind (resize_leads _) fun _ => ?_
  have goesOn : ∀ next ∈ chunkStates, Readies decodingRequest (At decodingRequest (· ∈ chunkStates))
      (checkpointAt next >>= fun _ => pure .empty : Decode ChannelMessage) :=
    fun next behind => Leads.bind (checkpoint_chunks behind) fun _ =>
      finished (fun _ _ holds => holds) _
  refine Leads.ite (fun _ => goesOn _ (by decide)) fun _ => ?_
  exact Leads.ite (fun _ => goesOn _ (by decide)) fun _ => goesOn _ (by decide)

theorem chunkedState_leads :
    Readies decodingRequest (At decodingRequest (· ∈ chunkStates)) chunkedState := by
  refine get_bind fun context => same_bind (Same.readSlice _) (fun _ _ holds => holds.1)
    fun buff => same_bind Same.needMoreBytes (fun _ _ holds => holds.1) fun more => ?_
  refine Leads.ite (fun _ => finished (fun _ _ holds => holds.1) _) fun _ => ?_
  exact Leads.bind (checkpoint_chunks (by decide)) fun _ => publishChunk_leads _

theorem chunkedChunksState_leads :
    Readies decodingRequest (At decodingRequest (· ∈ chunkStates)) (chunkedChunksState limits) := by
  refine same_bind (Same.readPart limits) (fun _ _ holds => holds.1) fun part =>
    same_bind Same.needMoreBytes (fun _ _ holds => holds.1) fun more => ?_
  refine Leads.ite (fun _ => finished (fun _ _ holds => holds.1) _) fun _ => ?_
  have rest : ∀ {start : HttpMessageDecoder → Int → Prop},
      (∀ fields state, start fields state → Ready decodingRequest fields state) →
      Readies decodingRequest start
        (if (HttpChunk.chunk part.1).isLast = true then pure .empty
          else publishChunk (.chunk part.1)) := by
    intro start ready
    refine Leads.ite (fun _ => finished ready _) fun _ => ?_
    exact (publishChunk_leads _).weaken fun context holds => ready context.fields context.state holds
  refine Leads.bind (resize_leads _) fun _ => Leads.ite (fun _ => ?_) fun _ => ?_
  · exact Leads.bind (checkpoint_chunks (by decide)) fun _ => rest fun _ _ holds => holds
  · exact rest fun _ _ holds => holds.1

theorem delimiterLoop_leads (rounds : Nat) :
    Readies decodingRequest (At decodingRequest (· ∈ chunkStates)) (delimiterLoop rounds) := by
  have reads : ∀ {next : Byte → Decode Unit},
      (∀ value, Readies decodingRequest (At decodingRequest (· ∈ chunkStates)) (next value)) →
      Readies decodingRequest (At decodingRequest (· ∈ chunkStates)) (readByte >>= next) := fun later =>
    Leads.bind (Same.readByte.leads.strengthen (fun _ _ holds => holds) at_ready) later
  have asks : ∀ {next : Bool → Decode Unit},
      (∀ value, Readies decodingRequest (At decodingRequest (· ∈ chunkStates)) (next value)) →
      Readies decodingRequest (At decodingRequest (· ∈ chunkStates)) (needMoreBytes >>= next) := fun later =>
    Leads.bind (Same.needMoreBytes.leads.strengthen (fun _ _ holds => holds) at_ready) later
  have ends : Readies decodingRequest (At decodingRequest (· ∈ chunkStates)) (pure () : Decode Unit) :=
    Leads.pure at_ready
  have turns : Readies decodingRequest (At decodingRequest (· ∈ chunkStates))
      (checkpointAt READ_CHUNK_SIZE) :=
    checkpoint_chunks (by decide)
  induction rounds with
  | zero => exact Leads.throw at_ready
  | succ rounds induction =>
      refine reads fun next => asks fun more => Leads.ite (fun _ => ends) fun _ => ?_
      refine Leads.ite (fun _ => ?_) fun _ => Leads.ite (fun _ => turns) fun _ => induction
      refine reads fun next => Leads.ite (fun _ => turns) fun _ => asks fun more => ?_
      exact Leads.ite (fun _ => ends) fun _ => induction

theorem delimiterState_leads :
    Readies decodingRequest (At decodingRequest (· ∈ chunkStates)) delimiterState := by
  refine same_bind Same.rounds (fun _ _ holds => holds.1) fun count => ?_
  exact Leads.bind (delimiterLoop_leads _) fun _ => finished (fun _ _ holds => holds) _

/-- The parts of the fields that the sizes and the headers have nothing to do with. -/
theorem core_parts {fields other : HttpMessageDecoder} (same : core fields = core other) :
    other.published = fields.published ∧ other.message = fields.message ∧
      other.content = fields.content ∧
      ∀ message, other.object = some message → ∃ earlier, fields.object = some earlier ∧
        earlier.content = message.content ∧ earlier.start = message.start := by
  refine ⟨?_, ?_, ?_, ?_⟩
  · exact (congrArg HttpMessageDecoder.published same).symm
  · exact (congrArg HttpMessageDecoder.message same).symm
  · exact (congrArg HttpMessageDecoder.content same).symm
  · intro message made
    have objects : fields.object.map (fun message => { message with header := .fresh }) =
        other.object.map fun message => { message with header := .fresh } :=
      congrArg HttpMessageDecoder.object same
    rw [made] at objects
    obtain ⟨earlier, found, equal⟩ := Option.map_eq_some_iff.mp objects
    have whole : ({ earlier with header := .fresh } : HttpMessage) =
        { message with header := .fresh } := equal
    obtain ⟨_, _, _, content, start⟩ := HttpMessage.mk.inj whole
    exact ⟨earlier, found, content, start⟩

theorem isRequest_of_start {first second : HttpMessage} (same : first.start = second.start) :
    first.isRequest = second.isRequest := by
  unfold HttpMessage.isRequest
  rw [same]

theorem base_calm {fields other : HttpMessageDecoder} (same : core fields = core other)
    (base : Base decodingRequest fields) : Base decodingRequest other := by
  obtain ⟨published, _, _, objects⟩ := core_parts same
  refine ⟨?_, ?_⟩
  · rw [published]
    exact base.usable
  · intro message made
    obtain ⟨earlier, found, _, start⟩ := objects message made
    rw [← isRequest_of_start start]
    exact base.kind earlier found

theorem ready_calm {fields other : HttpMessageDecoder} {state : Int}
    (same : core fields = core other) (ready : Ready decodingRequest fields state)
    (early : ¬(state = READ_VARIABLE_LENGTH_CONTENT ∨ state = READ_FIXED_LENGTH_CONTENT)) :
    Ready decodingRequest other state := by
  obtain ⟨_, pointer, content, _⟩ := core_parts same
  obtain ⟨_, _, _, objects⟩ := core_parts same.symm
  refine ⟨base_calm same ready.base, ?_⟩
  cases ready.posed with
  | idle between settled => exact .idle between (content.trans settled)
  | header settled pointed made =>
      obtain ⟨later, found, _, _⟩ := objects _ made
      exact .header (content.trans settled) (pointer.trans pointed) found
  | body before pointed made bodied => exact absurd before early
  | chunks behind settled pointed made holding =>
      obtain ⟨later, found, filled, _⟩ := objects _ made
      obtain ⟨buffer, held, empty⟩ := holding
      exact .chunks behind (content.trans settled) (pointer.trans pointed) found
        ⟨buffer, filled.trans held, empty⟩

theorem footerState_leads :
    Readies decodingRequest (At decodingRequest (· ∈ chunkStates)) (footerState limits) := by
  have calm : ∀ (fields other : HttpMessageDecoder) (state : Int), core fields = core other →
      At decodingRequest (· ∈ chunkStates) fields state →
      At decodingRequest (· ∈ chunkStates) other state := by
    rintro fields other state same ⟨ready, place⟩
    refine ⟨ready_calm same ready ?_, place⟩
    rintro (here | here)
    · rw [here] at place
      exact absurd place (by decide)
    · rw [here] at place
      exact absurd place (by decide)
  refine Leads.bind (((Alike.readTrailingHeaders limits).leads calm).strengthen
    (fun _ _ holds => holds) at_ready) fun trailer => ?_
  refine Leads.ite (fun _ => ?_) fun _ => ?_
  · exact publishReset_leads.weaken fun _ holds => chunks_complete holds
  · exact (resetQuietly_leads (publishChunk_leads trailer)).weaken fun _ holds =>
      chunks_complete holds

/-- `createMessage` of a subclass makes messages of one kind. -/
def Makes (subclass : HttpSubclass) : Prop :=
  ∀ str1 str2 str3, Leads
    (fun object => ∀ message, object = some message →
      message.isRequest = subclass.isDecodingRequest)
    (subclass.createMessage str1 str2 str3)
    (fun _ object => ∃ message, object = some message ∧
      message.isRequest = subclass.isDecodingRequest)
    (fun object => ∀ message, object = some message →
      message.isRequest = subclass.isDecodingRequest)

/-- A message has been made and is not pointed to yet. -/
def Made (decodingRequest : Bool) (fields : HttpMessageDecoder) (state : Int) : Prop :=
  At decodingRequest (· = READ_INITIAL) fields state ∧ ∃ message, fields.object = some message

theorem createMessage_leads (makes : Makes subclass) (str1 str2 str3 : FastString) :
    Leads (Within (At subclass.isDecodingRequest (· = READ_INITIAL)))
      (createMessage subclass str1 str2 str3)
      (fun _ => Within (Made subclass.isDecodingRequest))
      (Within (Ready subclass.isDecodingRequest)) := by
  have reads : ∀ (program : Memory Text) {next : Text → Decode Unit},
      (∀ value, Leads (Within (At subclass.isDecodingRequest (· = READ_INITIAL))) (next value)
        (fun _ => Within (Made subclass.isDecodingRequest))
        (Within (Ready subclass.isDecodingRequest))) →
      Leads (Within (At subclass.isDecodingRequest (· = READ_INITIAL))) (onArray program >>= next)
        (fun _ => Within (Made subclass.isDecodingRequest))
        (Within (Ready subclass.isDecodingRequest)) := fun program {_} later =>
    Leads.bind ((Same.onArray program).leads.strengthen (fun _ _ holds => holds) at_ready) later
  have rebased : ∀ (fields : HttpMessageDecoder) (object : Option HttpMessage),
      Base subclass.isDecodingRequest fields →
      (∀ message, object = some message → message.isRequest = subclass.isDecodingRequest) →
      Base subclass.isDecodingRequest { fields with object := object } :=
    fun fields object base kind => ⟨base.usable, kind⟩
  have makesOne : ∀ first second third,
      Leads (Within (At subclass.isDecodingRequest (· = READ_INITIAL)))
        (focus (fun context => context.fields.object)
          (fun context object =>
            { context with fields := { context.fields with object := object } })
          (subclass.createMessage first second third))
        (fun _ => Within (Made subclass.isDecodingRequest))
        (Within (Ready subclass.isDecodingRequest)) := by
    intro first second third
    refine Leads.focus (makes first second third) ?_ ?_ ?_
    · rintro context ⟨ready, _⟩
      exact ready.base.kind
    · rintro context _ object ⟨ready, place⟩ ⟨message, made, kind⟩
      refine ⟨⟨⟨rebased _ _ ready.base ?_, ?_⟩, place⟩, message, made⟩
      · intro other same
        rw [made] at same
        cases same
        exact kind
      · exact .idle (Or.inr place) (ready.posed.of_idle (Or.inr place))
    · rintro context object ⟨ready, place⟩ kind
      refine ⟨rebased _ _ ready.base kind, ?_⟩
      exact .idle (Or.inr place) (ready.posed.of_idle (Or.inr place))
  unfold createMessage
  refine Leads.ite (fun _ => ?_) fun _ => ?_
  · exact fun context holds => at_ready context holds
  · exact reads _ fun first => reads _ fun second => reads _ fun third => makesOne _ _ _

theorem initialState_leads (makes : Makes subclass) :
    Readies subclass.isDecodingRequest (At subclass.isDecodingRequest (· = READ_INITIAL))
      (initialState limits subclass) := by
  refine same_bind (Same.readLine _) (fun _ _ holds => holds.1) fun line =>
    same_bind (Same.onArray _) (fun _ _ holds => holds.1) fun split => ?_
  have inHeader : ∀ change : HttpMessageDecoder → HttpMessageDecoder,
      (∀ fields, core (change fields) = core fields) →
      Leads (Within (At subclass.isDecodingRequest (· = READ_HEADER))) (update change)
        (fun _ => Within (At subclass.isDecodingRequest (· = READ_HEADER)))
        (Within (Ready subclass.isDecodingRequest)) := by
    intro change apart
    apply update_leads
    rintro fields state ⟨ready, place⟩
    refine ⟨ready_calm (apart fields).symm ready ?_, place⟩
    rw [place]
    decide
  have cleared : Readies subclass.isDecodingRequest (At subclass.isDecodingRequest (· = READ_HEADER))
      (onMessage fun message => pure { message with header := .fresh }) := by
    refine onMessage_leads ?_ fun _ _ holds => holds.1
    rintro fields state message changed ⟨ready, place⟩ made changes
    cases changes
    refine ready_calm ?_ ready ?_
    · unfold core
      rw [made]
      rfl
    · rw [place]
      decide
  have pointed : Leads (Within (Made subclass.isDecodingRequest))
      (update fun fields => { fields with message := true })
      (fun _ => Within fun fields _ => Base subclass.isDecodingRequest fields ∧
        fields.content = none ∧ fields.message = true ∧ ∃ message, fields.object = some message)
      (Within (Ready subclass.isDecodingRequest)) := by
    apply update_leads
    rintro fields state ⟨⟨ready, place⟩, message, made⟩
    exact ⟨ready.base.alike rfl rfl, ready.posed.of_idle (Or.inr place), rfl, message, made⟩
  have entered : Leads (Within fun fields _ => Base subclass.isDecodingRequest fields ∧
        fields.content = none ∧ fields.message = true ∧ ∃ message, fields.object = some message)
      (checkpointAt READ_HEADER)
      (fun _ => Within (At subclass.isDecodingRequest (· = READ_HEADER)))
      (Within (Ready subclass.isDecodingRequest)) := by
    apply checkpointAt_leads
    rintro fields state ⟨base, settled, pointed, message, made⟩
    exact ⟨⟨base, .header settled pointed made⟩, rfl⟩
  split
  · refine Leads.bind (createMessage_leads makes _ _ _) fun _ => Leads.bind pointed fun _ =>
      Leads.bind entered fun _ => Leads.bind (inHeader _ fun _ => rfl) fun _ =>
      Leads.bind cleared fun _ => ?_
    exact finished (fun _ _ holds => holds) _
  · refine Leads.bind (checkpointAt_leads ?_) fun _ => finished (fun _ _ holds => holds) _
    rintro fields state ⟨ready, place⟩
    exact ⟨ready.base, .idle (Or.inl rfl) (ready.posed.of_idle (Or.inr place))⟩
  · exact finished (fun _ _ holds => holds.1) _

/-- The headers end in the state that the message asks for. -/
theorem readHeaders_next (limits : HttpLimits) :
    Leads (fun _ => True) (readHeaders limits)
      (fun next context => next = READ_HEADER ∨
        ∃ message, context.fields.object = some message ∧ next = nextState message)
      (fun _ => True) := by
  have anything : ∀ {Result : Type} (program : Decode Result),
      Leads (fun _ => True) program (fun _ _ => True) fun _ => True := by
    intro Result program context _
    cases program.run context with
    | ok value after => exact trivial
    | error stop after => exact trivial
  refine Leads.bind (anything _) fun line => Leads.bind (anything _) fun _ =>
    Leads.bind (anything _) fun more => Leads.ite (fun _ => Leads.pure fun _ _ => Or.inl rfl) fun _ => ?_
  refine Leads.bind (anything _) fun count => Leads.bind (anything _) fun whole =>
    Leads.ite (fun _ => ?_) fun _ => Leads.pure fun _ _ => Or.inl rfl
  intro context _
  rcases theMessage_cases context with ⟨message, _, made, found⟩ | missing
  · rw [run_bind_ok _ found]
    exact Or.inr ⟨message, made, rfl⟩
  · rw [run_bind_error _ missing]
    exact trivial

/-- A message whose content is still to come, in the state for it. -/
structure Announceable (decodingRequest : Bool) (fields : HttpMessageDecoder) (state : Int) : Prop where
  base : Base decodingRequest fields
  settled : fields.content = none
  pointed : fields.message = true
  made : ∃ message, fields.object = some message
  behind : state ∈ chunkStates

/-- A message that has been announced and can be published. -/
def Announced (decodingRequest : Bool) (fields : HttpMessageDecoder) (state : Int) : Prop :=
  At decodingRequest (· ∈ chunkStates) fields state ∧
    ∀ message, fields.object = some message → Usable message

theorem announces :
    Leads (Within (Announceable decodingRequest)) (onMessage fun message => message.setChunked true)
      (fun _ => Within (Announced decodingRequest)) (Within (Ready decodingRequest)) := by
  rintro context ⟨base, settled, pointed, ⟨message, made⟩, behind⟩
  obtain ⟨changed, changes⟩ : ∃ changed, message.setChunked true = .ok changed := ⟨_, rfl⟩
  obtain ⟨filled, kind, usable⟩ := setChunked_announces changes
  have ran : (onMessage fun message => message.setChunked true).run context =
      .ok () { context with fields := { context.fields with object := some changed } } := by
    unfold onMessage
    rw [run_bind_ok _ (theMessage_run pointed made)]
    dsimp only
    rw [changes]
    rfl
  rw [ran]
  refine ⟨⟨⟨⟨base.usable, ?_⟩, .chunks behind settled pointed rfl ⟨_, filled, rfl⟩⟩, behind⟩, ?_⟩
  · intro other same
    cases same
    exact kind.trans (base.kind message made)
  · intro other same
    cases same
    exact usable

theorem publishMessage_leads :
    Readies decodingRequest (Announced decodingRequest) publishMessage := by
  rintro context ⟨⟨ready, place⟩, usable⟩
  obtain ⟨settled, pointed, message, made, holding⟩ := ready.posed.of_chunks place
  unfold publishMessage
  rw [run_bind_ok _ (theMessage_run pointed made)]
  exact ⟨ready.base.publish (usable message made), .chunks place settled pointed made holding⟩

/-- The headers are read and the content is still to come. -/
def Expecting (decodingRequest : Bool) (fields : HttpMessageDecoder) (state : Int) : Prop :=
  At decodingRequest
      (fun state => state = READ_VARIABLE_LENGTH_CONTENT ∨ state = READ_FIXED_LENGTH_CONTENT)
      fields state ∧
    fields.content = none

theorem announceable {fields : HttpMessageDecoder} {state next : Int} (behind : next ∈ chunkStates)
    (holds : Expecting decodingRequest fields state) : Announceable decodingRequest fields next := by
  obtain ⟨⟨ready, place⟩, settled⟩ := holds
  obtain ⟨pointed, message, made, _⟩ := ready.posed.of_body place
  exact ⟨ready.base, settled, pointed, ⟨message, made⟩, behind⟩

/-- What the headers of a message with content leave. -/
structure Headed (message : HttpMessage) (decodingRequest : Bool) (fields : HttpMessageDecoder)
    (state : Int) : Prop where
  base : Base decodingRequest fields
  settled : fields.content = none
  pointed : fields.message = true
  made : fields.object = some message
  place : state = READ_VARIABLE_LENGTH_CONTENT ∨ state = READ_FIXED_LENGTH_CONTENT

theorem lengthState_leads {message : HttpMessage} (allowed : isContentAlwaysEmpty message = false)
    (next : Int) :
    Readies subclass.isDecodingRequest (Headed message subclass.isDecodingRequest)
      (lengthState limits subclass next) := by
  have keeps : ∀ {Result : Type} {program : Decode Result}, Same program →
      Leads (Within (Expecting subclass.isDecodingRequest)) program
        (fun _ => Within (Expecting subclass.isDecodingRequest))
        (Within (Ready subclass.isDecodingRequest)) := fun same =>
    same.leads.strengthen (fun _ _ holds => holds) fun _ holds => holds.1.1
  have kept : ∀ {Result : Type} {program : Decode Result}, Same program →
      Leads (Within (Announced subclass.isDecodingRequest)) program
        (fun _ => Within (Announced subclass.isDecodingRequest))
        (Within (Ready subclass.isDecodingRequest)) := fun same =>
    same.leads.strengthen (fun _ _ holds => holds) fun _ holds => holds.1.1
  have waits : Readies subclass.isDecodingRequest (Expecting subclass.isDecodingRequest)
      (pure .empty : Decode ChannelMessage) := finished (fun _ _ holds => holds.1.1) _
  have sized : ∀ size : Int, Leads (Within (Announced subclass.isDecodingRequest))
      (update fun fields => { fields with chunkSize := size })
      (fun _ => Within (Announced subclass.isDecodingRequest))
      (Within (Ready subclass.isDecodingRequest)) := by
    intro size
    apply update_leads
    rintro fields state ⟨⟨ready, place⟩, usable⟩
    obtain ⟨settled, pointed, message, made, holding⟩ := ready.posed.of_chunks place
    exact ⟨⟨⟨ready.base.alike rfl rfl, .chunks place settled pointed made holding⟩, place⟩, usable⟩
  rintro context ⟨base, settled, pointed, made, place⟩
  unfold lengthState
  rw [run_bind_ok _ (theMessage_run pointed made)]
  refine (?_ : Readies subclass.isDecodingRequest (Headed message subclass.isDecodingRequest) _)
    context ⟨base, settled, pointed, made, place⟩
  refine Leads.ite (fun _ => ?_) fun long => ?_
  · refine Leads.bind (update_leads ?_) fun _ => publishReset_leads
    rintro fields state ⟨base, settled, pointed, made, place⟩
    exact ⟨base.alike rfl rfl, pointed, message, made, Or.inl ⟨.emptyBuffer, rfl, Or.inl rfl⟩⟩
  · have expecting : ∀ context : ReplayContext HttpMessageDecoder,
        Within (Headed message subclass.isDecodingRequest) context →
        Within (Expecting subclass.isDecodingRequest) context := by
      rintro context ⟨base, settled, pointed, made, place⟩
      have bodied : bodiless message = false := by
        rw [not_or] at long
        obtain ⟨some_, given⟩ := long
        unfold bodiless
        rw [allowed, base.kind message made, decide_eq_false some_, Bool.false_or, Bool.false_or]
        cases request : subclass.isDecodingRequest with
        | false => exact Bool.and_false _
        | true =>
            rw [Bool.and_true]
            exact decide_eq_false fun missing => given ⟨missing, request⟩
      exact ⟨⟨⟨base, .body place pointed made bodied⟩, place⟩, settled⟩
    refine Leads.weaken ?_ expecting
    refine Leads.ite (fun _ => ?_) fun _ => ?_
    · refine Leads.bind (keeps Same.theMessage) fun _ => Leads.ite (fun _ => ?_) fun _ => waits
      refine Leads.bind (checkpointAt_leads fun _ _ holds => announceable (by decide) holds)
        fun _ => Leads.bind announces fun _ => Leads.bind (kept Same.theMessage) fun _ =>
        Leads.bind (sized _) fun _ => publishMessage_leads
    · refine get_bind fun _ => Leads.bind (keeps Same.theMessage) fun _ =>
        Leads.ite (fun _ => ?_) fun _ => waits
      exact Leads.bind (checkpointAt_leads fun _ _ holds => announceable (by decide) holds)
        fun _ => Leads.bind announces fun _ => publishMessage_leads

/-- The call reads the headers of a response whose status allows no content to their end. -/
def skipsContent (limits : HttpLimits) (call : ReplayContext HttpMessageDecoder) : Bool :=
  call.state = READ_HEADER &&
    (match call.fields.object with
      | some message => isContentAlwaysEmpty message
      | none => false) &&
    match (readHeaders limits).run call with
    | .ok next _ => next ≠ READ_HEADER
    | .error _ _ => false

theorem isContentAlwaysEmpty_of_start {first second : HttpMessage}
    (same : first.start = second.start) :
    isContentAlwaysEmpty first = isContentAlwaysEmpty second := by
  unfold isContentAlwaysEmpty
  rw [same]

theorem nextState_cases {message : HttpMessage} (allowed : isContentAlwaysEmpty message = false) :
    nextState message = READ_CHUNK_SIZE ∨ nextState message = READ_VARIABLE_LENGTH_CONTENT ∨
      nextState message = READ_FIXED_LENGTH_CONTENT := by
  unfold nextState
  rw [allowed, if_neg Bool.false_ne_true]
  by_cases chunked : message.isChunked = true
  · rw [if_pos chunked]
    exact Or.inl rfl
  · rw [if_neg chunked]
    by_cases sized : 0 ≤ HttpHeaders.getContentLength message (-1)
    · rw [if_pos sized]
      exact Or.inr (Or.inr rfl)
    · rw [if_neg sized]
      exact Or.inr (Or.inl rfl)

theorem headerState_keeps {call : ReplayContext HttpMessageDecoder}
    (ready : Ready subclass.isDecodingRequest call.fields call.state)
    (place : call.state = READ_HEADER) (fine : skipsContent limits call = false) :
    Within (Ready subclass.isDecodingRequest) (leaves (headerState limits subclass) call) := by
  have early : ¬(call.state = READ_VARIABLE_LENGTH_CONTENT ∨
      call.state = READ_FIXED_LENGTH_CONTENT) := by
    rw [place]
    decide
  have alike := Alike.readHeaders limits (core call.fields) call.state call ⟨rfl, rfl⟩
  unfold headerState
  cases ran : (readHeaders limits).run call with
  | error stop after =>
      rw [ran] at alike
      rw [leaves_error (run_bind_error _ ran)]
      have stayed := ready_calm alike.1.symm ready early
      rw [← alike.2] at stayed
      exact stayed
  | ok next after =>
      rw [ran] at alike
      rw [leaves_same (run_bind_ok _ ran)]
      have stayed := ready_calm alike.1.symm ready early
      rw [← alike.2] at stayed
      by_cases unfinished : next = READ_HEADER
      · rw [if_pos unfinished]
        exact stayed
      · rw [if_neg unfinished]
        obtain ⟨message, made, asked⟩ : ∃ message, after.fields.object = some message ∧
            next = nextState message :=
          ((readHeaders_next limits).ok trivial ran).resolve_left unfinished
        obtain ⟨_, _, _, objects⟩ := core_parts alike.1.symm
        obtain ⟨earlier, found, _, start⟩ := objects message made
        have allowed : isContentAlwaysEmpty message = false := by
          rw [← isContentAlwaysEmpty_of_start start]
          by_contra empty
          rw [Bool.not_eq_false] at empty
          have skips : skipsContent limits call = true := by
            unfold skipsContent
            rw [place, found, ran]
            dsimp only
            rw [empty, decide_eq_true unfinished]
            rfl
          exact absurd (skips.symm.trans fine) Bool.noConfusion
        have header : Posed after.fields READ_HEADER := by
          rw [← place, ← alike.2]
          exact stayed.posed
        obtain ⟨settled, pointed, _⟩ := header.of_header
        rcases nextState_cases allowed with chunks | sized
        · rw [← asked] at chunks
          subst chunks
          have announced : Readies subclass.isDecodingRequest (Announceable subclass.isDecodingRequest) (do
              onMessage fun message => message.setChunked true
              publishMessage : Decode ChannelMessage) :=
            Leads.bind announces fun _ => publishMessage_leads
          exact announced.leaves ⟨stayed.base, settled, pointed, ⟨message, made⟩,
            (by decide : READ_CHUNK_SIZE ∈ chunkStates)⟩
        · rw [← asked] at sized
          have neither : next ≠ READ_CHUNK_SIZE ∧ next ≠ SKIP_CONTROL_CHARS := by
            rcases sized with rfl | rfl
            · decide
            · decide
          rw [if_neg neither.1, if_neg neither.2]
          exact (lengthState_leads allowed next).leaves
            (⟨stayed.base, settled, pointed, made, sized⟩ :
              Headed message subclass.isDecodingRequest _ next)

theorem decode_keeps (makes : Makes subclass) :
    ReplayingDecoder.CallsKeep (replaying limits subclass) (Ready subclass.isDecodingRequest)
      fun call => skipsContent limits call = false := by
  intro call ready fine
  change Within _ (leaves (decode limits subclass call.state) call)
  have among : ∀ {state : Int}, call.state = state → state ∈ chunkStates → Within
      (At subclass.isDecodingRequest (· ∈ chunkStates)) call := by
    intro state place behind
    rw [← place] at behind
    exact ⟨ready, behind⟩
  unfold decode
  refine leaves_ite (fun place => skipState_leads.leaves ⟨ready, place⟩) fun _ => ?_
  refine leaves_ite (fun place => (initialState_leads makes).leaves ⟨ready, place⟩) fun _ => ?_
  refine leaves_ite (fun place => headerState_keeps ready place fine) fun _ => ?_
  refine leaves_ite (fun place => variableState_leads.leaves ⟨ready, place⟩) fun _ => ?_
  refine leaves_ite (fun place => variableChunksState_leads.leaves (among place (by decide)))
    fun _ => ?_
  refine leaves_ite (fun place => fixedState_leads.leaves ⟨ready, place⟩) fun _ => ?_
  refine leaves_ite (fun place => fixedChunksState_leads.leaves (among place (by decide)))
    fun _ => ?_
  refine leaves_ite (fun place => chunkSizeState_leads.leaves (among place (by decide)))
    fun _ => ?_
  refine leaves_ite (fun place => chunkedState_leads.leaves (among place (by decide))) fun _ => ?_
  refine leaves_ite (fun place => chunkedChunksState_leads.leaves (among place (by decide)))
    fun _ => ?_
  refine leaves_ite (fun place => delimiterState_leads.leaves (among place (by decide))) fun _ => ?_
  exact leaves_ite (fun place => footerState_leads.leaves (among place (by decide))) fun _ => ready

end States

end Invariant

/-- The two decoders. -/
inductive Decoding where
  | request
  | response
  deriving DecidableEq, Repr

namespace Decoding

def subclass : Decoding → HttpSubclass
  | request => HttpRequestDecoder.subclass
  | response => HttpResponseDecoder.subclass

def fresh : Decoding → ReplayReception HttpMessageDecoder
  | request => HttpMessageDecoder.fresh
  | response => HttpResponseDecoder.fresh

theorem makes_request : Makes HttpRequestDecoder.subclass := by
  intro str1 str2 str3
  change Leads (fun object => ∀ message, object = some message → message.isRequest = true)
    (HttpRequestDecoder.createMessage str1 str2 str3)
    (fun _ object => ∃ message, object = some message ∧ message.isRequest = true)
    (fun object => ∀ message, object = some message → message.isRequest = true)
  intro object kind
  unfold HttpRequestDecoder.createMessage
  rw [run_bind_get]
  cases object with
  | none =>
      dsimp only
      cases HttpVersion.valueOf str3 with
      | error stop => exact kind
      | ok version =>
          cases HttpMethod.valueOf str1 with
          | error stop => exact kind
          | ok method => exact ⟨_, rfl, rfl⟩
  | some request =>
      obtain ⟨held, uri, start⟩ : ∃ method uri, request.start = .request method uri := by
        have requests := kind request rfl
        unfold HttpMessage.isRequest at requests
        cases start : request.start with
        | request method uri => exact ⟨method, uri, rfl⟩
        | response status =>
            rw [start] at requests
            cases requests
      dsimp only
      rw [start]
      have cleared : ∀ version message, some (HttpMessage.again version (.request held [])) =
          some message → message.isRequest = true := by
        intro version message same
        cases same
        rfl
      cases HttpVersion.valueOf str3 with
      | error stop => exact cleared _
      | ok version =>
          cases HttpMethod.valueOf str1 with
          | error stop => exact cleared _
          | ok method => exact ⟨_, rfl, rfl⟩

theorem makes_response : Makes HttpResponseDecoder.subclass := by
  intro str1 str2 str3
  change Leads (fun object => ∀ message, object = some message → message.isRequest = false)
    (HttpResponseDecoder.createMessage str1 str2 str3)
    (fun _ object => ∃ message, object = some message ∧ message.isRequest = false)
    (fun object => ∀ message, object = some message → message.isRequest = false)
  intro object kind
  unfold HttpResponseDecoder.createMessage
  rw [run_bind_get]
  cases object with
  | none => exact kind
  | some response =>
      have cleared : ∀ version status message,
          some (HttpMessage.again version (.response status)) = some message →
          message.isRequest = false := by
        intro version status message same
        cases same
        rfl
      dsimp only
      cases HttpVersion.valueOf str1 with
      | error stop => exact cleared _ _
      | ok version =>
          cases HttpResponseStatus.make (Integer.parse str2) str3 with
          | error stop => exact cleared _ _
          | ok status => exact ⟨_, rfl, rfl⟩

theorem makes (decoding : Decoding) : Makes decoding.subclass := by
  cases decoding with
  | request => exact makes_request
  | response => exact makes_response

theorem ready (decoding : Decoding) :
    Ready decoding.subclass.isDecodingRequest decoding.fresh.decoder.fields
      decoding.fresh.decoder.state := by
  cases decoding with
  | request =>
      refine ⟨⟨?_, ?_⟩, .idle (Or.inl rfl) rfl⟩
      · intro object among
        cases among
      · intro message made
        cases made
  | response =>
      refine ⟨⟨?_, ?_⟩, .idle (Or.inl rfl) rfl⟩
      · intro object among
        cases among
      · intro message made
        cases made
        rfl

/-- The decoder after some deliveries, with all that it has fired. -/
def after (decoding : Decoding) (limits : HttpLimits) (config : ChannelConfig) (fuel : Nat)
    (deliveries : List Delivery) : Sender (ReplayingDecoder HttpMessageDecoder) :=
  ReplayingDecoder.deliveredAll (replaying limits decoding.subclass) config fuel
    ⟨decoding.fresh.decoder, []⟩ deliveries

/-- The decode calls that are made for some deliveries. -/
def calls (decoding : Decoding) (limits : HttpLimits) (config : ChannelConfig) (fuel : Nat)
    (deliveries : List Delivery) : List (ReplayContext HttpMessageDecoder) :=
  ReplayingDecoder.runCalls (replaying limits decoding.subclass) config fuel
    ⟨decoding.fresh.decoder, []⟩ deliveries

end Decoding

/-- The object of a fired message. -/
def firedObject (published : List HttpObject) : Upward → Option HttpObject
  | .event event => shown published event
  | .closing _ => none

/-- While no decode call reads the headers of a response whose status allows no content to their
end, all that is fired can be used. -/
theorem fired_messages_usable (decoding : Decoding) (limits : HttpLimits) (config : ChannelConfig)
    (fuel : Nat) (deliveries : List Delivery)
    (sized : ∀ call ∈ decoding.calls limits config fuel deliveries,
      skipsContent limits call = false) :
    ∀ upward ∈ (decoding.after limits config fuel deliveries).sent, ∀ object,
      firedObject (decoding.after limits config fuel deliveries).decoder.fields.published upward =
        some object → UsableObject object := by
  have held : ReplayingDecoder.Held (Ready decoding.subclass.isDecodingRequest)
      (decoding.after limits config fuel deliveries).decoder :=
    ReplayingDecoder.run_keeps rfl (decode_keeps decoding.makes) decoding.ready sized
  intro upward _ object found
  apply held.base.usable object
  cases upward with
  | closing event => cases found
  | event event =>
      cases event with
      | exceptionCaught cause => cases found
      | messageReceived message =>
          cases message with
          | object identity => exact List.mem_of_getElem? found
          | _ => cases found

/-- A received buffer with some text. -/
def line (characters : Text) : Delivery :=
  .message (.buffer (.heap ⟨.big, characters, ⟨0, characters.length, 0, 0⟩⟩)) false

def limits : HttpLimits := ⟨4096, 8192, 8192⟩

/-- Whether the content of each fired message can be read; `none` is a null pointer. -/
def firedContents (sender : Sender (ReplayingDecoder HttpMessageDecoder)) :
    List (Option Bool) :=
  sender.sent.filterMap fun upward =>
    match firedObject sender.decoder.fields.published upward with
    | some (.message message) => some (message.content.map ChannelBuffer.readable)
    | _ => none

theorem fired_messages_usable_after_ok :
    ∃ upward ∈ (Decoding.response.after limits ⟨false, .big⟩ 9
        [line (text "HTTP/1.1 200 OK\r\nContent-"), line (text "Length: 2\r\n\r\nHi")]).sent,
      ∃ object, firedObject (Decoding.response.after limits ⟨false, .big⟩ 9
        [line (text "HTTP/1.1 200 OK\r\nContent-"),
          line (text "Length: 2\r\n\r\nHi")]).decoder.fields.published upward = some object ∧
      UsableObject object := by
  have fine : ((Decoding.response.calls limits ⟨false, .big⟩ 9
      [line (text "HTTP/1.1 200 OK\r\nContent-"), line (text "Length: 2\r\n\r\nHi")]).all
        fun call => !skipsContent limits call) = true := by decide +kernel
  have some_ : ((Decoding.response.after limits ⟨false, .big⟩ 9
      [line (text "HTTP/1.1 200 OK\r\nContent-"),
        line (text "Length: 2\r\n\r\nHi")]).sent.any fun upward =>
      (firedObject (Decoding.response.after limits ⟨false, .big⟩ 9
        [line (text "HTTP/1.1 200 OK\r\nContent-"),
          line (text "Length: 2\r\n\r\nHi")]).decoder.fields.published upward).isSome) = true := by
    decide +kernel
  obtain ⟨upward, sent, shows⟩ := List.any_eq_true.mp some_
  obtain ⟨object, found⟩ := Option.isSome_iff_exists.mp shows
  refine ⟨upward, sent, object, found, ?_⟩
  apply fired_messages_usable .response limits ⟨false, .big⟩ 9 _ _ upward sent object found
  intro call among
  have skips := List.all_eq_true.mp fine call among
  rw [Bool.not_eq_true'] at skips
  exact skips

/-- A response that is whole in one buffer. -/
theorem no_content_is_null :
    firedContents (Decoding.response.after limits ⟨false, .big⟩ 9
      [line (text "HTTP/1.1 204 No Content\r\n\r\n")]) = [none] ∧
    ¬∀ upward ∈ (Decoding.response.after limits ⟨false, .big⟩ 9
        [line (text "HTTP/1.1 204 No Content\r\n\r\n")]).sent,
      ∀ object, firedObject (Decoding.response.after limits ⟨false, .big⟩ 9
        [line (text "HTTP/1.1 204 No Content\r\n\r\n")]).decoder.fields.published upward =
          some object → UsableObject object := by
  have null : firedContents (Decoding.response.after limits ⟨false, .big⟩ 9
      [line (text "HTTP/1.1 204 No Content\r\n\r\n")]) = [none] := by decide +kernel
  refine ⟨null, fun usable => ?_⟩
  have among : none ∈ firedContents (Decoding.response.after limits ⟨false, .big⟩ 9
      [line (text "HTTP/1.1 204 No Content\r\n\r\n")]) := by
    rw [null]
    exact List.mem_cons_self
  obtain ⟨upward, sent, contents⟩ := List.mem_filterMap.mp among
  cases found : firedObject (Decoding.response.after limits ⟨false, .big⟩ 9
      [line (text "HTTP/1.1 204 No Content\r\n\r\n")]).decoder.fields.published upward with
  | none =>
      rw [found] at contents
      cases contents
  | some object =>
      rw [found] at contents
      have good := usable upward sent object found
      cases object with
      | message message =>
          obtain ⟨content, held, _⟩ := good
          have missing : some (message.content.map ChannelBuffer.readable) = some none := contents
          rw [held] at missing
          cases missing
      | chunk chunk => cases contents
      | null => exact good

end HttpMessageDecoder

end Cetty
