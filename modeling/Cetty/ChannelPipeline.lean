import Cetty.Exceptions

/-!
# DefaultChannelPipeline

The pipeline's contexts live in a heap of objects that a deletion takes out: a pointer
to a deleted context can be copied and compared, and following it, or deleting it a
second time, is an access out of bounds. Addresses are not used again. Life-cycle
callbacks leave the pipeline alone; which of them throw is given with each call.
-/

namespace Cetty

abbrev Address := Nat

/-- What the pipeline asks of a handler. -/
structure ChannelHandler where
  id : Nat
  upstream : Bool
  downstream : Bool
  lifeCycleAware : Bool
  deriving DecidableEq, Repr

structure DefaultChannelHandlerContext where
  next : Option Address
  prev : Option Address
  nextUpstream : Option Address
  nextDownstream : Option Address
  name : String
  handler : ChannelHandler
  deriving DecidableEq, Repr

namespace DefaultChannelHandlerContext

def canHandleUps (this : DefaultChannelHandlerContext) : Bool := this.handler.upstream

def canHandleDowns (this : DefaultChannelHandlerContext) : Bool := this.handler.downstream

end DefaultChannelHandlerContext

/-- `std::map` from names to contexts. -/
abbrev ContextMap := List (String × Address)

namespace ContextMap

def find (map : ContextMap) (name : String) : Option Address := map.lookup name

def erase (map : ContextMap) (name : String) : ContextMap := map.filter (·.1 ≠ name)

/-- `map[name] = ctx`. -/
def put (map : ContextMap) (name : String) (ctx : Address) : ContextMap :=
  (name, ctx) :: ContextMap.erase map name

theorem find_erase_self (map : ContextMap) (name : String) : (map.erase name).find name = none := by
  apply List.lookup_eq_none_iff.mpr
  intro entry member
  have kept := of_decide_eq_true (List.mem_filter.mp member).2
  exact bne_iff_ne.mpr (fun same => kept same.symm)

theorem find_erase_of_ne (map : ContextMap) {name other : String} (different : other ≠ name) :
    (map.erase name).find other = map.find other := by
  induction map with
  | nil => rfl
  | cons entry rest ih =>
      rcases entry with ⟨key, address⟩
      by_cases dropped : key = name
      · have gone : ContextMap.erase ((key, address) :: rest) name = ContextMap.erase rest name :=
          List.filter_cons_of_neg (by simpa using dropped)
        rw [gone, ih]
        unfold find
        rw [List.lookup_cons, beq_false_of_ne (by rw [dropped]; exact different)]
      · have stays : ContextMap.erase ((key, address) :: rest) name =
            (key, address) :: ContextMap.erase rest name :=
          List.filter_cons_of_pos (by simpa using dropped)
        rw [stays]
        unfold find at ih ⊢
        rw [List.lookup_cons, List.lookup_cons, ih]

theorem find_of_find_erase {map : ContextMap} {name other : String} {address : Address}
    (known : (map.erase name).find other = some address) : map.find other = some address := by
  by_cases same : other = name
  · rw [same, find_erase_self] at known
    cases known
  · rw [find_erase_of_ne map same] at known
    exact known

theorem find_put_self (map : ContextMap) (name : String) (address : Address) :
    (map.put name address).find name = some address := by
  unfold put find
  rw [List.lookup_cons, beq_self_eq_true]

theorem find_put_of_ne (map : ContextMap) {name other : String} (address : Address)
    (different : other ≠ name) : (map.put name address).find other = map.find other := by
  rw [← find_erase_of_ne map different]
  unfold put find
  rw [List.lookup_cons, beq_false_of_ne different]

end ContextMap

structure DefaultChannelPipeline where
  contexts : Address → Option DefaultChannelHandlerContext
  /-- The address of the next context. -/
  fresh : Address
  head : Option Address
  tail : Option Address
  upstreamHead : Option Address
  downstreamHead : Option Address
  name2ctx : ContextMap

inductive LifeCycleCall where
  | beforeAdd
  | afterAdd
  | beforeRemove
  | afterRemove
  deriving DecidableEq, Repr

abbrev PipelineM (Value : Type) := Exec DefaultChannelPipeline Value

namespace DefaultChannelPipeline

def empty : DefaultChannelPipeline :=
  { contexts := fun _ => none
    fresh := 0
    head := none
    tail := none
    upstreamHead := none
    downstreamHead := none
    name2ctx := [] }

def withContext (this : DefaultChannelPipeline) (address : Address)
    (ctx : Option DefaultChannelHandlerContext) : DefaultChannelPipeline :=
  { this with contexts := fun other => if other = address then ctx else this.contexts other }

end DefaultChannelPipeline

namespace PipelineM

open DefaultChannelPipeline

/-- An `if` without an `else`. -/
def provided (condition : Prop) [Decidable condition] (program : PipelineM Unit) :
    PipelineM Unit :=
  if condition then program else pure ()

def context (address : Address) : PipelineM DefaultChannelHandlerContext := do
  match (← get).contexts address with
  | some ctx => pure ctx
  | none => throw .outOfBounds

def dereference (pointer : Option Address) : PipelineM Address :=
  match pointer with
  | some address => pure address
  | none => throw .outOfBounds

def update (address : Address)
    (change : DefaultChannelHandlerContext → DefaultChannelHandlerContext) :
    PipelineM Unit := do
  let ctx ← context address
  modify fun this => this.withContext address (some (change ctx))

def setNext (address : Address) (next : Option Address) : PipelineM Unit :=
  update address fun ctx => { ctx with next := next }

def setPrev (address : Address) (prev : Option Address) : PipelineM Unit :=
  update address fun ctx => { ctx with prev := prev }

def setHead (head : Option Address) : PipelineM Unit :=
  modify fun this => { this with head := head }

def setTail (tail : Option Address) : PipelineM Unit :=
  modify fun this => { this with tail := tail }

def setUpstreamHead (upstreamHead : Option Address) : PipelineM Unit :=
  modify fun this => { this with upstreamHead := upstreamHead }

def setDownstreamHead (downstreamHead : Option Address) : PipelineM Unit :=
  modify fun this => { this with downstreamHead := downstreamHead }

def setName2ctx (change : ContextMap → ContextMap) : PipelineM Unit :=
  modify fun this => { this with name2ctx := change this.name2ctx }

/-- `delete`. -/
def delete (address : Address) : PipelineM Unit := do
  let _ ← context address
  modify fun this => this.withContext address none

/-- `new`. -/
def allocate (ctx : DefaultChannelHandlerContext) : PipelineM Address := do
  let this ← get
  set { this.withContext this.fresh (some ctx) with fresh := this.fresh + 1 }
  pure this.fresh

/-- `new DefaultChannelHandlerContext`. -/
def newContext (name : String) (handler : ChannelHandler) (prev next : Option Address) :
    PipelineM Address := do
  provided (¬handler.upstream ∧ ¬handler.downstream) (throw (invalidArgumentException
    "handler must be either ChannelUpstreamHandler or ChannelDownstreamHandler."))
  allocate
    { next := next
      prev := prev
      nextUpstream := none
      nextDownstream := none
      name := name
      handler := handler }

/-- One round of the loop of `updateUpstreamList`. -/
def chainUpstream (up : Address) (ctx : DefaultChannelHandlerContext) : PipelineM Unit :=
  provided ctx.canHandleUps do
    let this ← get
    provided (this.upstreamHead ≠ none)
      (update up fun ctx => { ctx with nextUpstream := this.upstreamHead })
    setUpstreamHead (some up)

def updateUpstreamFrom : Nat → Option Address → PipelineM Unit
  | 0, _ => throw .diverges
  | _ + 1, none => pure ()
  | fuel + 1, some up => do
      let ctx ← context up
      chainUpstream up ctx
      updateUpstreamFrom fuel ctx.prev

def updateUpstreamList : PipelineM Unit := do
  let this ← get
  setUpstreamHead none
  updateUpstreamFrom (this.fresh + 1) this.tail

/-- One round of the loop of `updateDownstreamList`. -/
def chainDownstream (down : Address) (ctx : DefaultChannelHandlerContext) : PipelineM Unit :=
  provided ctx.canHandleDowns do
    let this ← get
    provided (this.downstreamHead ≠ none)
      (update down fun ctx => { ctx with nextDownstream := this.downstreamHead })
    setDownstreamHead (some down)

def updateDownstreamFrom : Nat → Option Address → PipelineM Unit
  | 0, _ => throw .diverges
  | _ + 1, none => pure ()
  | fuel + 1, some down => do
      let ctx ← context down
      chainDownstream down ctx
      updateDownstreamFrom fuel ctx.next

def updateDownstreamList : PipelineM Unit := do
  let this ← get
  setDownstreamHead none
  updateDownstreamFrom (this.fresh + 1) this.head

/-- The lines every method has after it has moved the list's pointers. -/
def updateLists (ups downs : Bool) : PipelineM Unit := do
  provided ups updateUpstreamList
  provided downs updateDownstreamList

def checkDuplicateName (name : String) : PipelineM Unit := do
  let this ← get
  provided (this.name2ctx.find name ≠ none)
    (throw (invalidArgumentException "Duplicate handler name."))

def getContextOrDie (name : String) : PipelineM Address := do
  match (← get).name2ctx.find name with
  | none => throw (rangeException name)
  | some ctx => pure ctx

section Modifications

-- Which callbacks throw in the call.
variable (throws : LifeCycleCall → Address → Bool)

def callback (callback : LifeCycleCall) (message : String) (address : Address) :
    PipelineM Unit := do
  let ctx ← context address
  provided (ctx.handler.lifeCycleAware ∧ throws callback address)
    (throw (lifeCycleException message))

def callBeforeAdd : Address → PipelineM Unit :=
  callback throws .beforeAdd ".beforeAdd() has thrown an exception; not adding."

def callBeforeRemove : Address → PipelineM Unit :=
  callback throws .beforeRemove ".beforeRemove() has thrown an exception; not removing."

def callAfterRemove : Address → PipelineM Unit :=
  callback throws .afterRemove ".afterRemove() has thrown an exception."

/-- The pointers and the map when the head goes. -/
def unlinkFirst (ctx : DefaultChannelHandlerContext) : PipelineM Unit :=
  match ctx.next with
  | none => do
      setHead none
      setTail none
      setName2ctx fun _ => []
  | some next => do
      setPrev next none
      setHead (some next)
      setName2ctx (·.erase ctx.name)

/-- The pointers and the map when the tail goes. -/
def unlinkLast (ctx : DefaultChannelHandlerContext) : PipelineM Unit :=
  match ctx.prev with
  | none => do
      setHead none
      setTail none
      setName2ctx fun _ => []
  | some prev => do
      setNext prev none
      setTail (some prev)
      setName2ctx (·.erase ctx.name)

/-- What `removeFirst` and `removeLast` share from their first test on. -/
def removeEnd (pointer : Option Address)
    (unlink : DefaultChannelHandlerContext → PipelineM Unit) : PipelineM ChannelHandler :=
  match pointer with
  | none => throw (rangeException "head is null")
  | some address => do
      callBeforeRemove throws address
      let ctx ← context address
      unlink ctx
      updateLists ctx.canHandleUps ctx.canHandleDowns
      callAfterRemove throws address
      delete address
      pure ctx.handler

def removeFirst : PipelineM ChannelHandler := do
  let this ← get
  if this.name2ctx = [] then throw (rangeException "name2ctx is empty")
  else removeEnd throws this.head unlinkFirst

def removeLast : PipelineM ChannelHandler := do
  let this ← get
  if this.name2ctx = [] then throw (rangeException "name2ctx is empty")
  else removeEnd throws this.tail unlinkLast

/-- `remove` of the only context there is; no callback is called. -/
def removeOnly (address : Address) : PipelineM ChannelHandler := do
  setHead none
  setTail none
  setName2ctx fun _ => []
  let ctx ← context address
  delete address
  pure ctx.handler

/-- `remove` of a context between two others. -/
def removeMiddle (address : Address) : PipelineM ChannelHandler := do
  callBeforeRemove throws address
  let ctx ← context address
  setNext (← dereference ctx.prev) ctx.next
  setPrev (← dereference ctx.next) ctx.prev
  updateLists ctx.canHandleUps ctx.canHandleDowns
  setName2ctx (·.erase ctx.name)
  callAfterRemove throws address
  delete address
  pure ctx.handler

/-- `remove(DefaultChannelHandlerContext*)`. -/
def removeContext (address : Address) : PipelineM ChannelHandler := do
  let this ← get
  if this.head = this.tail then removeOnly address
  else if some address = this.head then removeFirst throws
  else if some address = this.tail then removeLast throws
  else removeMiddle throws address

/-- `remove(const std::string&)`. -/
def remove (name : String) : PipelineM ChannelHandler := do
  removeContext throws (← getContextOrDie name)

/-- `remove` inside the `try` of `callAfterAdd`. -/
def takeOut (address : Address) : PipelineM Unit :=
  tryCatch (do let _ ← removeContext throws address) fun stop =>
    match stop with
    | .thrown _ => throw (lifeCycleException
        ".afterAdd() has thrown an exception; also failed to remove.")
    | stop => throw stop

def callAfterAdd (address : Address) : PipelineM Unit := do
  let ctx ← context address
  provided (ctx.handler.lifeCycleAware ∧ throws .afterAdd address) (takeOut throws address)

def init (name : String) (handler : ChannelHandler) : PipelineM Unit := do
  let ctx ← newContext name handler none none
  callBeforeAdd throws ctx
  setHead (some ctx)
  setTail (some ctx)
  provided handler.upstream (setUpstreamHead (some ctx))
  provided handler.downstream (setDownstreamHead (some ctx))
  setName2ctx fun _ => ContextMap.put [] name ctx
  callAfterAdd throws ctx

/-- What the four ways to add a handler share; `link` moves the neighbours' pointers. -/
def insert (name : String) (handler : ChannelHandler) (prev next : Option Address)
    (link : Address → PipelineM Unit) : PipelineM Unit := do
  let newCtx ← newContext name handler prev next
  callBeforeAdd throws newCtx
  link newCtx
  updateLists handler.upstream handler.downstream
  setName2ctx (·.put name newCtx)
  callAfterAdd throws newCtx

def addFirst (name : String) : Option ChannelHandler → PipelineM Unit
  | none => pure ()
  | some handler => do
      let this ← get
      if this.name2ctx = [] then init throws name handler
      else do
        checkDuplicateName name
        insert throws name handler none this.head fun newHead => do
          setPrev (← dereference this.head) (some newHead)
          setHead (some newHead)

def addLast (name : String) : Option ChannelHandler → PipelineM Unit
  | none => pure ()
  | some handler => do
      let this ← get
      if this.name2ctx = [] then init throws name handler
      else do
        checkDuplicateName name
        insert throws name handler this.tail none fun newTail => do
          setNext (← dereference this.tail) (some newTail)
          setTail (some newTail)

def addBefore (baseName name : String) : Option ChannelHandler → PipelineM Unit
  | none => pure ()
  | some handler => do
      let ctx ← getContextOrDie baseName
      let this ← get
      if some ctx = this.head then addFirst throws name (some handler)
      else do
        checkDuplicateName name
        let base ← context ctx
        insert throws name handler base.prev (some ctx) fun newCtx => do
          setNext (← dereference base.prev) (some newCtx)
          setPrev ctx (some newCtx)

def addAfter (baseName name : String) : Option ChannelHandler → PipelineM Unit
  | none => pure ()
  | some handler => do
      let ctx ← getContextOrDie baseName
      let this ← get
      if some ctx = this.tail then addLast throws name (some handler)
      else do
        checkDuplicateName name
        let base ← context ctx
        insert throws name handler (some ctx) base.next fun newCtx => do
          setPrev (← dereference base.next) (some newCtx)
          setNext ctx (some newCtx)

/-- A step of `replace` whose life-cycle exception is kept for later. -/
def caught (program : PipelineM Unit) : PipelineM (Option Exception) :=
  tryCatch (do program; pure none) fun stop =>
    match stop with
    | .thrown exception => pure (some exception)
    | stop => throw stop

/-- The end of `replace` after the two callbacks; the message about both of them reads
the context it has deleted. -/
def settleReplace (address : Address) (handler : ChannelHandler) :
    Option Exception → Option Exception → PipelineM ChannelHandler
  | some _, some _ => do
      delete address
      throw .outOfBounds
  | some removeException, none => do
      delete address
      throw (.thrown removeException)
  | none, some addException => do
      delete address
      throw (.thrown addException)
  | none, none => do
      delete address
      pure handler

/-- `replace` of a context between two others. -/
def replaceMiddle (address : Address) (newName : String) (newHandler : ChannelHandler) :
    PipelineM ChannelHandler := do
  let ctx ← context address
  provided (ctx.name ≠ newName) (checkDuplicateName newName)
  let newCtx ← newContext newName newHandler ctx.prev ctx.next
  callBeforeRemove throws address
  callBeforeAdd throws newCtx
  setNext (← dereference ctx.prev) (some newCtx)
  setPrev (← dereference ctx.next) (some newCtx)
  updateLists (newHandler.upstream || ctx.canHandleUps)
    (newHandler.downstream || ctx.canHandleDowns)
  provided (ctx.name ≠ newName) (setName2ctx fun map => (map.erase ctx.name).put newName newCtx)
  let removeException ← caught (callAfterRemove throws address)
  let addException ← caught (callAfterAdd throws newCtx)
  settleReplace address ctx.handler removeException addException

/-- `replace` of the head or the tail. The removal has deleted the context by the time
the last line deletes it. -/
def replaceEnd (address : Address) (remove : PipelineM ChannelHandler) (add : PipelineM Unit) :
    PipelineM ChannelHandler := do
  let replacedHandle ← remove
  add
  delete address
  pure replacedHandle

/-- `replace(DefaultChannelHandlerContext*, ..)` with a handler that is not `NULL`. -/
def replaceContext (address : Address) (newName : String) (newHandler : ChannelHandler) :
    PipelineM ChannelHandler := do
  let this ← get
  if some address = this.head then
    replaceEnd address (removeFirst throws) (addFirst throws newName (some newHandler))
  else if some address = this.tail then
    replaceEnd address (removeLast throws) (addLast throws newName (some newHandler))
  else replaceMiddle throws address newName newHandler

def replace (oldName newName : String) (newHandler : Option ChannelHandler) :
    PipelineM (Option ChannelHandler) := do
  let ctx ← getContextOrDie oldName
  match newHandler with
  | none => pure none
  | some newHandler => do
      let replacedHandle ← replaceContext throws ctx newName newHandler
      pure (some replacedHandle)

end Modifications

/-- The loop of `toMap`. -/
def toMapFrom : Nat → Address → PipelineM (List (String × ChannelHandler))
  | 0, _ => throw .diverges
  | fuel + 1, address => do
      let ctx ← context address
      match ctx.next with
      | none => pure [(ctx.name, ctx.handler)]
      | some next => do
          let rest ← toMapFrom fuel next
          pure ((ctx.name, ctx.handler) :: rest)

def toMap : PipelineM (List (String × ChannelHandler)) := do
  let this ← get
  if this.name2ctx = [] then pure []
  else do
    let head ← dereference this.head
    toMapFrom (this.fresh + 1) head

end PipelineM

/-- The calls that modify a pipeline. -/
inductive Modification where
  | addFirst (name : String) (handler : Option ChannelHandler)
  | addLast (name : String) (handler : Option ChannelHandler)
  | addBefore (baseName name : String) (handler : Option ChannelHandler)
  | addAfter (baseName name : String) (handler : Option ChannelHandler)
  | remove (name : String)
  | removeFirst
  | removeLast
  | replace (oldName newName : String) (newHandler : Option ChannelHandler)
  deriving DecidableEq, Repr

namespace PipelineM

/-- The call, its result dropped. -/
def perform (throws : LifeCycleCall → Address → Bool) : Modification → PipelineM Unit
  | .addFirst name handler => addFirst throws name handler
  | .addLast name handler => addLast throws name handler
  | .addBefore baseName name handler => addBefore throws baseName name handler
  | .addAfter baseName name handler => addAfter throws baseName name handler
  | .remove name => do let _ ← remove throws name
  | .removeFirst => do let _ ← removeFirst throws
  | .removeLast => do let _ ← removeLast throws
  | .replace oldName newName newHandler => do let _ ← replace throws oldName newName newHandler

end PipelineM

end Cetty
