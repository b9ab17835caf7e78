import AirFerry.TransferEngine.Receiver

namespace AirFerry.TransferEngine
open RaptorqCore

structure ResumeState where
  sessionId : U128
  objectMeta : ObjectMeta
  received : List (Finset U32)
  symbols : List (U32 × U32 × Bytes)

namespace ResumeState

def validateReceived (maxSymbolRecords : Nat) : List (Finset U32) → Nat → Except String Unit
  | [], _ => .ok ()
  | set :: rest, receivedCount =>
      match checkedAdd receivedCount set.card with
      | none => .error "resume received count overflow"
      | some receivedCount =>
          if maxSymbolRecords < receivedCount ∨ ∃ esi ∈ set, 2 ^ 24 ≤ esi.toNat then
            .error "received ESI set exceeds resume budget"
          else validateReceived maxSymbolRecords rest receivedCount

def validateSymbols (objectMeta : ObjectMeta) (maxSymbolBytes : Nat) :
    List (U32 × U32 × Bytes) → Nat → Except String Unit
  | [], _ => .ok ()
  | (sbn, esi, data) :: rest, symbolBytes =>
      if objectMeta.blocks.length ≤ sbn.toNat ∨ 2 ^ 24 ≤ esi.toNat then
        .error "stored resume symbol coordinate out of range"
      else if data.length ≠ objectMeta.symbolSize.toNat then
        .error "stored resume symbol has wrong size"
      else
        match checkedAdd symbolBytes data.length with
        | none => .error "resume symbol byte count overflow"
        | some symbolBytes =>
            if maxSymbolBytes < symbolBytes then .error "stored resume symbols exceed byte budget"
            else validateSymbols objectMeta maxSymbolBytes rest symbolBytes

def validate (R : Raptorq) (state : ResumeState) : Except String Unit := do
  state.objectMeta.validate R
  if state.objectMeta.blocks.length < state.received.length then
    throw "too many received block sets"
  let some maxSymbolRecords := checkedMul maxTotalSourceSymbols 2
    | throw "resume symbol-count budget overflow"
  validateReceived maxSymbolRecords state.received 0
  if maxSymbolRecords < state.symbols.length then throw "too many stored resume symbols"
  let some padding := checkedMul state.objectMeta.symbolSize.toNat state.objectMeta.blocks.length
    | throw "resume padding budget overflow"
  let some maxSymbolBytes := (checkedMul maxObjectBytes 2).bind fun v => checkedAdd v padding
    | throw "resume byte budget overflow"
  validateSymbols state.objectMeta maxSymbolBytes state.symbols 0

end ResumeState

namespace ReceiverSession

variable {E : Env}

def saveState (s : ReceiverSession E) : Option ResumeState :=
  s.objectMeta.map fun objectMeta =>
    let symbols := (E.drain s.symbolCache.entries).map fun e => (e.1.1, e.1.2, e.2)
    { sessionId := s.sessionId, objectMeta, symbols
      received := symbols.foldl (fun received (sbn, esi, _) =>
          received.modify sbn.toNat fun set => insert esi set)
        (objectMeta.blocks.map fun _ => ∅) }

/-- The loop of `restore`; a rejected symbol is skipped. -/
def restoreSymbols : ReceiverSession E → List (U32 × U32 × Bytes) → Exec (ReceiverSession E)
  | s, [] => .ok s
  | s, (sbn, esi, data) :: rest => do
      let bi := sbn.toNat
      if bi < s.received.length ∧ esi.toNat < 2 ^ 24 ∧
          asU32 data.length = s.pendingSymbolSize.toNat then
        match ← s.insertReceived bi esi with
        | (s, false) => restoreSymbols s rest
        | (s, true) =>
            let s ← match s.objectMeta with
              | some objectMeta => s.countSource objectMeta bi esi
              | none => pure s
            let (s, _) ← s.feedDecoder (Symbol.new sbn esi data)
            restoreSymbols s rest
      else restoreSymbols s rest

def restore (state : ResumeState) : Exec (Except Error (ReceiverSession E)) := do
  match state.validate E.raptorq with
  | .error reason => return .error (.invalidResume reason)
  | .ok () =>
      match ← newConfirmed state.sessionId state.objectMeta with
      | .error e => return .error e
      | .ok s =>
          let s : ReceiverSession E ← s.restoreSymbols state.symbols
          let receivedSymbols ← sumU32 (s.received.map fun block => asU32 block.card)
          let s := { s with progress := { s.progress with receivedSymbols } }
          return .ok (← s.refreshDecodedCounts)

end ReceiverSession

end AirFerry.TransferEngine
