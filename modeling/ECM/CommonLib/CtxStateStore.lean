import ECM.CommonLib.Contexts
import ECM.Lib.SortedMap
import Mathlib.Data.Int.Order.Basic
import Mathlib.Data.Prod.Lex

/-! # The store of context states

The states and window weights that the contexts had near the end of a picture, for
the pictures of the same slice type, temporal layer and QP that follow. -/

namespace ECM.CommonLib.Contexts
open Lib

inductive BPMType where
  | BPM_Undefined
  | BPM_Std
  deriving DecidableEq, Repr

/-- The probability models of all contexts; the Golomb-Rice statistics play no part here. -/
structure Ctx where
  m_BPMType : BPMType
  m_CtxBuffer : List BinProbModel
  deriving DecidableEq, Repr

namespace Ctx

def sizeMsg (tableSize bufferSize : ℕ) : String :=
  s!"Size of prob states table ({tableSize}) does not match size of context buffer ({bufferSize})."

def savePStates (ctx : Ctx) (probStates : List (ℕ × ℕ)) : List (ℕ × ℕ) :=
  match ctx.m_BPMType with
  | .BPM_Std => ctx.m_CtxBuffer.map (·.getState)
  | .BPM_Undefined => probStates

def saveWeights (ctx : Ctx) (weights : List ℕ) : List ℕ :=
  match ctx.m_BPMType with
  | .BPM_Std => ctx.m_CtxBuffer.map (·.weight)
  | .BPM_Undefined => weights

def loadPStates (ctx : Ctx) (probStates : List (ℕ × ℕ)) : Checked Ctx :=
  match ctx.m_BPMType with
  | .BPM_Std => do
    check (ctx.m_CtxBuffer.length ≠ probStates.length) (sizeMsg probStates.length ctx.m_CtxBuffer.length)
    return { ctx with m_CtxBuffer := ctx.m_CtxBuffer.zipWith (·.setState ·) probStates }
  | .BPM_Undefined => return ctx

def loadWeights (ctx : Ctx) (weights : List ℕ) : Checked Ctx :=
  match ctx.m_BPMType with
  | .BPM_Std => do
    check (ctx.m_CtxBuffer.length ≠ weights.length) (sizeMsg weights.length ctx.m_CtxBuffer.length)
    return { ctx with m_CtxBuffer := ctx.m_CtxBuffer.zipWith (·.setAdaptRateWeight ·) weights }
  | .BPM_Undefined => return ctx

end Ctx

structure CtxStateBuf where
  m_states : List (ℕ × ℕ)
  m_valid : Bool
  m_weights : List ℕ
  deriving DecidableEq, Repr

namespace CtxStateBuf

def new : CtxStateBuf := ⟨[], false, []⟩

def getIfValid (buf : CtxStateBuf) (ctx : Ctx) : Checked (Bool × Ctx) :=
  if buf.m_valid then do
    let ctx ← ctx.loadPStates buf.m_states
    let ctx ← ctx.loadWeights buf.m_weights
    return (true, ctx)
  else return (false, ctx)

def store (buf : CtxStateBuf) (ctx : Ctx) : CtxStateBuf where
  m_states := ctx.savePStates buf.m_states
  m_weights := ctx.saveWeights buf.m_weights
  m_valid := true

end CtxStateBuf

structure CtxStateArray where
  m_data : List CtxStateBuf
  deriving DecidableEq, Repr

namespace CtxStateArray

def new : CtxStateArray := ⟨[]⟩

def getIfValid (arr : CtxStateArray) (ctx : Ctx) : Checked (Bool × Ctx) :=
  match arr.m_data with
  | buf :: _ => buf.getIfValid ctx
  | [] => return (false, ctx)

/-- An empty array is first resized to one buffer. -/
def store (arr : CtxStateArray) (ctx : Ctx) : CtxStateArray :=
  match arr.m_data with
  | buf :: rest => ⟨buf.store ctx :: rest⟩
  | [] => ⟨[CtxStateBuf.new.store ctx]⟩

end CtxStateArray

inductive SliceType where
  | B_SLICE
  | P_SLICE
  | I_SLICE
  deriving DecidableEq, Repr

/-- What the store reads of a slice. -/
structure Slice where
  getSliceType : SliceType
  getTLayer : ℤ
  getSliceQp : ℤ
  deriving DecidableEq, Repr

/-- `std::pair<int, int>` in its order. -/
abbrev Entry := ℤ ×ₗ ℤ

def Slice.entry (slice : Slice) : Entry := toLex (slice.getTLayer, slice.getSliceQp)

def TEMP_CABAC_BUFFER_SIZE : ℕ := 5

/-- `m_stateBuf[0]` and `m_stateBuf[1]` are those of B and P slices. -/
structure CtxStateStore where
  m_stateBuf : SliceType → SortedMap Entry CtxStateArray

namespace CtxStateStore

def new : CtxStateStore := ⟨fun _ => .empty⟩

/-- `m_stateBuf[t][entry]`, then the store into it. -/
def storeEntry (stateBuf : SortedMap Entry CtxStateArray) (entry : Entry) (ctx : Ctx) :
    SortedMap Entry CtxStateArray :=
  stateBuf.insert entry (((stateBuf.find? entry).getD .new).store ctx)

def storeCtx (store : CtxStateStore) (slice : Slice) (ctx : Ctx) : Checked CtxStateStore :=
  let t := slice.getSliceType
  if t ≠ .I_SLICE then do
    let entry := slice.entry
    let stateBuf := store.m_stateBuf t
    if (stateBuf.find? entry).isSome ∨ stateBuf.size < TEMP_CABAC_BUFFER_SIZE then
      return ⟨Function.update store.m_stateBuf t (storeEntry stateBuf entry ctx)⟩
    else do
      let stateBuf := if stateBuf.size = TEMP_CABAC_BUFFER_SIZE then stateBuf.eraseBegin else stateBuf
      let stateBuf := storeEntry stateBuf entry ctx
      check (stateBuf.size > TEMP_CABAC_BUFFER_SIZE) "Wrong buffer size"
      return ⟨Function.update store.m_stateBuf t stateBuf⟩
  else return store

def loadCtx (store : CtxStateStore) (slice : Slice) (ctx : Ctx) : Checked (Bool × Ctx) :=
  let t := slice.getSliceType
  if t ≠ .I_SLICE then
    match (store.m_stateBuf t).find? slice.entry with
    | some ctxStateArray => ctxStateArray.getIfValid ctx
    | none => return (false, ctx)
  else return (false, ctx)

def clearValid (store : CtxStateStore) : CtxStateStore :=
  ⟨Function.update (Function.update store.m_stateBuf .B_SLICE .empty) .P_SLICE .empty⟩

end CtxStateStore

end ECM.CommonLib.Contexts
