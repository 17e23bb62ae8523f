import ECM.CommonLib.IntraMpm
import ECM.CommonLib.TransformUnits

/-! # Binarizations of the decoder

The helper functions of `CABACReader`. -/

namespace ECM.DecoderLib.CABACReader
open CommonLib CommonLib.Bins Lib.Codec

/-- The loop of `unary_max_symbol`: at most `left` bins more. -/
def unarySymbolBins (ctxId0 ctxIdN : CtxId) : (left onesRead : ℕ) → BinGet ℕ
  | 0, onesRead => pure onesRead
  | left + 1, onesRead => do
    let bin ← decodeBin (if onesRead = 0 then ctxId0 else ctxIdN)
    if bin then unarySymbolBins ctxId0 ctxIdN left (onesRead + 1) else return onesRead

def unary_max_symbol (ctxId0 ctxIdN : CtxId) (maxSymbol : ℕ) : BinGet ℕ :=
  unarySymbolBins ctxId0 ctxIdN maxSymbol 0

/-- The loop of `unary_max_eqprob`: at most `left` bins more. -/
def unaryBins : (left k : ℕ) → BinGet ℕ
  | 0, k => pure k
  | left + 1, k => do
    let bin ← decodeBinEP
    if bin then unaryBins left (k + 1) else return k

def unary_max_eqprob (maxSymbol : ℕ) : BinGet ℕ := unaryBins maxSymbol 0

/-- The loop of `exp_golomb_eqprob`, at most `rounds` times round: the symbol so far, and `count`. -/
def expGolombPrefix : (rounds symbol count : ℕ) → BinGet (ℕ × ℕ)
  | 0, _, _ => throw "shift out of range"
  | rounds + 1, symbol, count => do
    let bit ← decodeBinEP
    let symbol := u32 (symbol + u32 (bit.toNat <<< count))
    if bit then expGolombPrefix rounds symbol (count + 1) else return (symbol, count)

/-- A word cannot be shifted by more than 31 bits. -/
def exp_golomb_eqprob (count : ℕ) : BinGet ℕ := do
  let (symbol, count) ← expGolombPrefix 32 0 count
  if count ≠ 0 then
    let suffix ← decodeBinsEP count
    return u32 (symbol + suffix)
  else return symbol

def xReadTruncBinCode (maxSymbol : ℕ) : BinGet ℕ := do
  let thresh ← truncBinThresh maxSymbol
  let val := 1 <<< thresh
  let b := maxSymbol - val
  let symbol ← decodeBinsEP thresh
  if symbol ≥ val - b then
    let altSymbol ← decodeBinEP
    return 2 * symbol + altSymbol.toNat - (val - b)
  else return symbol

def code_unary_fixed (ctxId : CtxId) (unary_max fixed : ℕ) : BinGet ℕ := do
  let unary ← decodeBin ctxId
  if unary then unary_max_eqprob unary_max
  else
    let idx ← decodeBinsEP fixed
    return u32 (unary_max + 1 + idx)

end ECM.DecoderLib.CABACReader

/-! # Reading the control parameters of the in-loop filters

The part of `CABACReader` before the coding tree of a CTU. Where the source writes a
parameter of the current CTU into an array of the picture, a function returns it. -/

namespace ECM.DecoderLib.CABACReader
open CommonLib CommonLib.Bins CommonLib.InLoopFilter Lib.Codec Lib.Loop

/-! ## Bilateral filters -/

/-- `allCtuOn`, and `frmOn` if it is read. -/
def bifFirstBlock (bifParams : BifFlags) : BinGet BifFlags := do
  let allCtuOn ← decodeBinEP
  if ¬allCtuOn then do
    let frmOn ← decodeBinEP
    return { bifParams with allCtuOn, frmOn }
  else return { bifParams with allCtuOn }

def bifCtuOn (ctxId : CtxId) (bifParams : BifFlags) : BinGet Bool :=
  if bifParams.allCtuOn then pure true
  else if bifParams.frmOn then decodeBin ctxId
  else pure false

/-- The flags for the block `i`. -/
def bifBlock (useBIF : Bool) (ctxId : CtxId) (i : ℕ) (bifParams : BifFlags) : BinGet BifFlags :=
  if ¬useBIF then pure bifParams
  else do
    let bifParams ← (if i = 0 then bifFirstBlock { bifParams with ctuOn := fun _ => false }
      else pure bifParams : BinGet BifFlags)
    let on ← bifCtuOn ctxId bifParams
    return { bifParams with ctuOn := Function.update bifParams.ctuOn i on }

/-- `width_in_blocks * height_in_blocks`. -/
def numBifBlocks (pcv : PreCalcValues) : ℕ :=
  let width_in_blocks := pcv.lumaWidth / pcv.maxCUWidth + if pcv.lumaWidth % pcv.maxCUWidth ≠ 0 then 1 else 0
  let height_in_blocks :=
    pcv.lumaHeight / pcv.maxCUHeight + if pcv.lumaHeight % pcv.maxCUHeight ≠ 0 then 1 else 0
  width_in_blocks * height_in_blocks

def bif_blocks (cs : InLoopFilter.CodingStructure) (bifParams : BifParams) : BinGet BifParams := do
  let flags ← loop (bifBlock cs.pps.useBIF ⟨.BifCtrlFlags, 0⟩) (numBifBlocks cs.pcv) bifParams.toBifFlags
  return { flags with
    numBlocks := if cs.pps.useBIF ∧ numBifBlocks cs.pcv ≠ 0 then numBifBlocks cs.pcv else bifParams.numBlocks }

def chromaBifCb (cs : InLoopFilter.CodingStructure) (chromaBifParams : ChromaBifParams) : BinGet ChromaBifParams := do
  let cb ← loop (bifBlock cs.pps.useChromaBIF ⟨.ChromaBifCtrlFlagsCb, 0⟩) (numBifBlocks cs.pcv)
    chromaBifParams.cb
  return { chromaBifParams with
    cb, numBlocks := if cs.pps.useChromaBIF ∧ numBifBlocks cs.pcv ≠ 0 then numBifBlocks cs.pcv
      else chromaBifParams.numBlocks }

def chromaBifCr (cs : InLoopFilter.CodingStructure) (chromaBifParams : ChromaBifParams) : BinGet ChromaBifParams := do
  let cr ← loop (bifBlock cs.pps.useChromaBIF ⟨.ChromaBifCtrlFlagsCr, 0⟩) (numBifBlocks cs.pcv)
    chromaBifParams.cr
  return { chromaBifParams with
    cr, numBlocks := if cs.pps.useChromaBIF ∧ numBifBlocks cs.pcv ≠ 0 then numBifBlocks cs.pcv
      else chromaBifParams.numBlocks }

/-! ## Sample adaptive offset -/

/-- Mode and type of the first component of a channel. -/
def saoType (sao_pars : SAOOffset) : BinGet SAOOffset := do
  let on ← decodeBin ⟨.SaoTypeIdx, 0⟩
  if on then do
    let edge ← decodeBinEP
    return { sao_pars with
      modeIdc := .NEW, typeIdc := if edge then SAO_TYPE_START_EO else SAO_TYPE_START_BO }
  else return sao_pars

def saoOffsetSign (offset : ℤ) : BinGet ℤ :=
  if offset ≠ 0 then do
    let negative ← decodeBinEP
    return if negative then -offset else offset
  else pure offset

/-- `sao_pars.offset[( typeAuxInfo + k ) % MAX_NUM_SAO_CLASSES] = offset[k]`. -/
def storeBands (typeAuxInfo : ℕ) : (k : ℕ) → List ℤ → (ℕ → ℤ) → ℕ → ℤ
  | _, [], offset => offset
  | k, o :: os, offset =>
    storeBands typeAuxInfo (k + 1) os (Function.update offset ((typeAuxInfo + k) % NUM_SAO_BO_CLASSES) o)

def saoBandOffset (sao_pars : SAOOffset) (offset : List ℤ) : BinGet SAOOffset := do
  let offset ← offset.mapM saoOffsetSign
  let typeAuxInfo ← decodeBinsEP NUM_SAO_BO_CLASSES_LOG2
  return { sao_pars with typeAuxInfo, offset := storeBands typeAuxInfo 0 offset sao_pars.offset }

def storeEdges (offset : List ℤ) (old : ℕ → ℤ) : ℕ → ℤ := fun c =>
  if c = SAO_CLASS_EO_FULL_VALLEY then offset.getD 0 0
  else if c = SAO_CLASS_EO_HALF_VALLEY then offset.getD 1 0
  else if c = SAO_CLASS_EO_PLAIN then 0
  else if c = SAO_CLASS_EO_HALF_PEAK then -offset.getD 2 0
  else if c = SAO_CLASS_EO_FULL_PEAK then -offset.getD 3 0
  else old c

def saoEdgeClass (compID : ComponentID) (sao_pars cb : SAOOffset) : BinGet ℤ :=
  if compID ≠ .Cr then do
    let eoClass ← decodeBinsEP NUM_SAO_EO_TYPES_LOG2
    return sao_pars.typeIdc + eoClass
  else pure cb.typeIdc

def saoEdgeOffset (compID : ComponentID) (sao_pars cb : SAOOffset) (offset : List ℤ) : BinGet SAOOffset := do
  let typeIdc ← saoEdgeClass compID sao_pars cb
  return { sao_pars with typeIdc, typeAuxInfo := 0, offset := storeEdges offset sao_pars.offset }

def saoOffsets (bitDepth : ℕ) (compID : ComponentID) (sao_pars cb : SAOOffset) : BinGet SAOOffset :=
  if sao_pars.modeIdc = .OFF then pure sao_pars
  else do
    let offset ← (List.range 4).mapM fun _ => do
      let abs ← unary_max_eqprob (getMaxOffsetQVal bitDepth)
      return (abs : ℤ)
    if sao_pars.typeIdc = SAO_TYPE_START_BO then saoBandOffset sao_pars offset
    else saoEdgeOffset compID sao_pars cb offset

/-- One round of the loop over the components; Cr follows the type of Cb. -/
def saoComponent (bitDepths : ChannelType → ℕ) (sao_ctu_pars : SAOBlkParam) (compID : ComponentID) :
    BinGet SAOBlkParam := do
  let cb := sao_ctu_pars .Cb
  let sao_pars ← (if compID ≠ .Cr then saoType (sao_ctu_pars compID)
    else pure { sao_ctu_pars compID with modeIdc := cb.modeIdc, typeIdc := cb.typeIdc } : BinGet SAOOffset)
  let sao_pars ← saoOffsets (bitDepths compID.toChannelType) compID sao_pars cb
  return Function.update sao_ctu_pars compID sao_pars

/-- `sao_merge_left_flag` and `sao_merge_above_flag`; -1 is no merge. -/
def saoMergeType (leftAvail aboveAvail : Bool) : BinGet ℤ := do
  let sao_merge_type ← (if leftAvail then do
    let left ← decodeBin ⟨.SaoMergeFlag, 0⟩
    return -1 + (left.toNat : ℤ)
  else pure (-1) : BinGet ℤ)
  if sao_merge_type < 0 ∧ aboveAvail then do
    let above ← decodeBin ⟨.SaoMergeFlag, 0⟩
    return sao_merge_type + ((above.toNat <<< 1 : ℕ) : ℤ)
  else return sao_merge_type

def saoOff (pars : SAOBlkParam) : SAOBlkParam := fun compID => { pars compID with modeIdc := .OFF }

def saoMerge (luma chroma : Bool) (sao_merge_type : ℤ) (pars : SAOBlkParam) : SAOBlkParam := fun compID =>
  if compID = .Y ∧ (luma ∨ chroma) ∨ chroma then
    { pars compID with modeIdc := .MERGE, typeIdc := sao_merge_type }
  else pars compID

/-- The components from `firstComp` to `lastComp`. -/
def saoComponents (luma chroma : Bool) : List ComponentID :=
  let firstComp : ComponentID := if luma then .Y else .Cb
  let lastComp : ComponentID := if chroma then .Cr else .Y
  ComponentID.all.filter fun compID => firstComp.idx ≤ compID.idx ∧ compID.idx ≤ lastComp.idx

def saoCtu (cs : InLoopFilter.CodingStructure) (sao_ctu_pars : SAOBlkParam) (ctuRsAddr : ℕ) : BinGet SAOBlkParam := do
  let luma := cs.sliceSaoFlag .luma
  let chroma := cs.sliceSaoFlag .chroma
  let pos := cs.ctuPos ctuRsAddr
  let sao_merge_type ← saoMergeType (cs.leftAvail pos) (cs.aboveAvail pos cs.pcv.maxCUHeight)
  if sao_merge_type ≥ 0 then return saoMerge luma chroma sao_merge_type sao_ctu_pars
  else (saoComponents luma chroma).foldlM (saoComponent cs.sps.bitDepths) sao_ctu_pars

/-- The first return of the source, when neither SAO nor a bilateral filter is on, is among these. -/
def sao (cs : InLoopFilter.CodingStructure) (sao_ctu_pars : SAOBlkParam) (ctuRsAddr : ℕ) : BinGet SAOBlkParam :=
  if ¬cs.sps.saoEnabledFlag then pure sao_ctu_pars
  else if ¬cs.sliceSaoFlag .luma ∧ ¬cs.sliceSaoFlag .chroma then pure (saoOff sao_ctu_pars)
  else saoCtu cs (saoOff sao_ctu_pars) ctuRsAddr

/-! ## Cross-component filters -/

/-- `while( idcVal != count && decodeBinEP() ) idcVal++`, at most `rounds` times round. -/
def controlIdcOnes (count : ℕ) : (rounds idcVal : ℕ) → BinGet ℕ
  | 0, _ => throw "no bins left"
  | rounds + 1, idcVal =>
    if idcVal ≠ count then do
      let bin ← decodeBinEP
      if bin then controlIdcOnes count rounds (idcVal + 1) else return idcVal
    else pure idcVal

/-- An index up to `count`; whether it is not zero has a context. -/
def controlIdcBins (count : ℕ) (ctxId : CtxId) : BinGet ℕ := do
  let on ← decodeBin ctxId
  if on then fun bins => controlIdcOnes count (bins.length + 1) 1 bins else return 0

def ccSaoControlIdc (cs : InLoopFilter.CodingStructure) (compID : ComponentID) (curIdx : ℕ) (controlIdc : ℕ → ℕ)
    (lumaPos : Position) (setNum : ℕ) : BinGet ℕ :=
  let ctxt := cs.neighbourCtx (cs.leftAvail lumaPos) (cs.aboveAvail lumaPos cs.pcv.maxCUWidth)
    (fun i => controlIdc i ≠ 0) curIdx
  let ctxt := ctxt + if compID = .Y then 0 else if compID = .Cb then 3 else 6
  controlIdcBins setNum ⟨.CcSaoControlIdc, ctxt⟩

def ccAlfFilterControlIdc (cs : InLoopFilter.CodingStructure) (compID : ComponentID) (curIdx : ℕ)
    (filterControlIdc : ℕ → ℕ) (lumaPos : Position) (filterCount : ℕ) : BinGet ℕ := do
  let ctxt := cs.neighbourCtx (cs.leftAvail lumaPos) (cs.aboveAvail lumaPos cs.pcv.maxCUWidth)
    (fun i => filterControlIdc i ≠ 1) curIdx
  let ctxt := ctxt + if compID = .Cr then 3 else 0
  let idcVal ← controlIdcBins filterCount ⟨.CcAlfFilterControlFlag, ctxt⟩
  let pos0 := 1
  return if idcVal = pos0 then 0 else if idcVal < pos0 then idcVal + 1 else idcVal

/-! ## Adaptive loop filter -/

def readAlfCtuFilterIndex (numAps : ℕ) : BinGet ℕ :=
  let numAvailableFiltSets := numAps + NUM_FIXED_FILTER_SETS
  if numAvailableFiltSets > NUM_FIXED_FILTER_SETS then do
    let usePrevFilt ← decodeBin ⟨.AlfUseTemporalFilt, 0⟩
    if usePrevFilt then do
      let filtIndex ← (if numAps > 1 then xReadTruncBinCode (numAvailableFiltSets - NUM_FIXED_FILTER_SETS)
        else pure 0 : BinGet ℕ)
      return filtIndex + NUM_FIXED_FILTER_SETS
    else xReadTruncBinCode NUM_FIXED_FILTER_SETS
  else xReadTruncBinCode NUM_FIXED_FILTER_SETS

/-- `while( decoded < numAlts - 1 && decodeBin( ctxId ) ) ++decoded`. -/
def alternativeBins (numAlts : ℕ) (ctxId : CtxId) : BinGet ℕ := unarySymbolBins ctxId ctxId (numAlts - 1) 0

/-- `getAlfAPSs()[apsIdx]->getAlfAPSParam()`. -/
def alfAPSParam (cs : InLoopFilter.CodingStructure) (apsIdx : ℕ) : Checked AlfParam :=
  match cs.slice.alfAPSs apsIdx with
  | none => throw "APS not initialized"
  | some alfParam => pure alfParam

/-- Filter set and alternative of the luma component. -/
def alfLuma (cs : InLoopFilter.CodingStructure) (alf : AlfCtuControl) : BinGet AlfCtuControl := do
  let filterIndex ← readAlfCtuFilterIndex cs.slice.tileGroupNumAps
  if filterIndex ≥ NUM_FIXED_FILTER_SETS then do
    let alfParam ← alfAPSParam cs (cs.slice.tileGroupApsIdLuma (filterIndex - NUM_FIXED_FILTER_SETS))
    let decoded ← alternativeBins alfParam.numAlternativesLuma ⟨.ctbAlfAlternative, ComponentID.idx .Y⟩
    return { alf with filterIndex, alternative := Function.update alf.alternative .Y decoded }
  else return { alf with filterIndex }

/-- The alternative of a chroma component. -/
def alfChroma (cs : InLoopFilter.CodingStructure) (alf : AlfCtuControl) (compID : ComponentID) : BinGet AlfCtuControl := do
  let alfParam ← alfAPSParam cs cs.slice.tileGroupApsIdChroma
  let decoded ← (if alf.enableFlag compID then
      alternativeBins alfParam.numAlternativesChroma ⟨.ctbAlfAlternative, compID.idx⟩
    else pure 0 : BinGet ℕ)
  return { alf with alternative := Function.update alf.alternative compID decoded }

def alfEnabledComponent (cs : InLoopFilter.CodingStructure) (pic : PicControl) (ctuRsAddr : ℕ) (alf : AlfCtuControl)
    (compID : ComponentID) : BinGet AlfCtuControl := do
  let pos := cs.ctuPos ctuRsAddr
  let ctx := cs.neighbourCtx (cs.leftAvail pos) (cs.aboveAvail pos cs.pcv.maxCUHeight)
    (fun i => (pic.ctu i).alf.enableFlag compID) ctuRsAddr
  let flag ← decodeBin ⟨.ctbAlfFlag, compID.idx * 3 + ctx⟩
  let alf := { alf with enableFlag := Function.update alf.enableFlag compID flag }
  if compID = .Y then (if flag then alfLuma cs alf else return alf)
  else alfChroma cs alf compID

def alfComponent (cs : InLoopFilter.CodingStructure) (pic : PicControl) (ctuRsAddr : ℕ) (alf : AlfCtuControl)
    (compID : ComponentID) : BinGet AlfCtuControl :=
  if cs.slice.tileGroupAlfEnabledFlag compID then alfEnabledComponent cs pic ctuRsAddr alf compID
  else pure alf

def alfCtu (cs : InLoopFilter.CodingStructure) (pic : PicControl) (ctuRsAddr : ℕ) : BinGet AlfCtuControl :=
  if cs.sps.alfEnabledFlag ∧ cs.slice.tileGroupAlfEnabledFlag .Y then
    ComponentID.all.foldlM (alfComponent cs pic ctuRsAddr) (pic.ctu ctuRsAddr).alf
  else pure (pic.ctu ctuRsAddr).alf

/-! ## The CTU -/

def ccSaoComponent (cs : InLoopFilter.CodingStructure) (pic : PicControl) (ctuRsAddr : ℕ) (control : ComponentID → ℕ)
    (compID : ComponentID) : BinGet (ComponentID → ℕ) :=
  if cs.slice.ccSaoEnabled compID then do
    let idcVal ← ccSaoControlIdc cs compID ctuRsAddr (fun i => (pic.ctu i).ccSaoControl compID)
      (cs.ctuPos ctuRsAddr) (cs.slice.ccSaoSetNum compID)
    return Function.update control compID idcVal
  else pure control

def ccSaoCtu (cs : InLoopFilter.CodingStructure) (pic : PicControl) (ctuRsAddr : ℕ) : BinGet (ComponentID → ℕ) :=
  if cs.sps.ccsaoEnabledFlag then
    (validComponents cs.pcv.chrFormat).foldlM (ccSaoComponent cs pic ctuRsAddr)
      (pic.ctu ctuRsAddr).ccSaoControl
  else pure (pic.ctu ctuRsAddr).ccSaoControl

def ccAlfComponent (cs : InLoopFilter.CodingStructure) (pic : PicControl) (ctuRsAddr : ℕ) (control : ComponentID → ℕ)
    (compID : ComponentID) : BinGet (ComponentID → ℕ) :=
  if cs.slice.ccAlfFilterEnabled compID then do
    let idcVal ← ccAlfFilterControlIdc cs compID ctuRsAddr (fun i => (pic.ctu i).ccAlfFilterControl compID)
      (cs.ctuPos ctuRsAddr) (cs.slice.ccAlfFilterCount compID)
    return Function.update control compID idcVal
  else pure control

def ccAlfCtu (cs : InLoopFilter.CodingStructure) (pic : PicControl) (ctuRsAddr : ℕ) : BinGet (ComponentID → ℕ) :=
  if cs.sps.ccalfEnabledFlag then
    ((validComponents cs.pcv.chrFormat).drop 1).foldlM (ccAlfComponent cs pic ctuRsAddr)
      (pic.ctu ctuRsAddr).ccAlfFilterControl
  else pure (pic.ctu ctuRsAddr).ccAlfFilterControl

/-- Up to `coding_tree`. -/
def coding_tree_unit (cs : InLoopFilter.CodingStructure) (pic : PicControl) (ctuRsAddr : ℕ) : BinGet PicControl := do
  let pars ← sao cs (pic.ctu ctuRsAddr).sao ctuRsAddr
  let ccSaoControl ← ccSaoCtu cs pic ctuRsAddr
  let alf ← alfCtu cs pic ctuRsAddr
  let ccAlfFilterControl ← ccAlfCtu cs pic ctuRsAddr
  return { pic with ctu := Function.update pic.ctu ctuRsAddr ⟨pars, ccSaoControl, alf, ccAlfFilterControl⟩ }

/-- What `decompressSlice` reads of the bilateral filters before the CTU `ctuRsAddr`. -/
def bilateralFilters (cs : InLoopFilter.CodingStructure) (pic : PicControl) (ctuRsAddr : ℕ) : BinGet PicControl :=
  if ctuRsAddr = 0 then do
    let bifParam ← bif_blocks cs pic.bifParam
    let chromaBifParam ← chromaBifCb cs pic.chromaBifParam
    let chromaBifParam ← chromaBifCr cs chromaBifParam
    return { pic with bifParam, chromaBifParam }
  else pure pic

/-- What `decompressSlice` reads before the coding tree of a CTU. -/
def decompressCtu (cs : InLoopFilter.CodingStructure) (pic : PicControl) (ctuRsAddr : ℕ) : BinGet PicControl := do
  let pic ← bilateralFilters cs pic ctuRsAddr
  coding_tree_unit cs pic ctuRsAddr

end ECM.DecoderLib.CABACReader

/-! # Luma intra modes of the decoder

`CABACReader::intra_luma_pred_modes` and what it reads before the mode. -/

namespace ECM.DecoderLib.CABACReader
open CommonLib CommonLib.Bins Lib.Codec

variable (cu : IntraCu)

def tmp_flag : BinGet Bool := if cu.codesTmp then decodeBin ⟨.TmpFlag, cu.ctxTmpFlag⟩ else pure false

def mip_flag : BinGet Bool := if cu.codesMip then decodeBin ⟨.MipFlag, cu.ctxMipFlag⟩ else pure false

def mip_pred_mode (p : IntraPrediction) : BinGet IntraPrediction := do
  let mipTransposedFlag ← decodeBinEP
  let mipMode ← xReadTruncBinCode cu.getNumModesMip
  return { p with mipTransposedFlag, intraDir := mipMode }

def cu_timd_flag : BinGet Bool := if cu.codesTimd then decodeBin ⟨.TimdFlag, cu.ctxTimdFlag⟩ else pure false

/-- The reference line that a bin chooses between the lines `i` and `i + 1`. -/
def refLine (i inc : ℕ) : BinGet ℕ := do
  let bin ← decodeBin ⟨.MultiRefLineIdx, inc⟩
  return if bin then MULTI_REF_LINE_IDX (i + 1) else MULTI_REF_LINE_IDX i

def extend_ref_line (timd : Bool) : BinGet ℕ :=
  if cu.codesMRL then do
    let multiRefIdx ← refLine 0 (if timd then 5 else 0)
    if multiRefIdx ≠ MULTI_REF_LINE_IDX 0 then do
      let multiRefIdx ← refLine 1 (if timd then 6 else 1)
      if multiRefIdx ≠ MULTI_REF_LINE_IDX 1 ∧ !timd then do
        let multiRefIdx ← refLine 2 2
        if multiRefIdx ≠ MULTI_REF_LINE_IDX 2 then do
          let multiRefIdx ← refLine 3 3
          if multiRefIdx ≠ MULTI_REF_LINE_IDX 3 then refLine 4 4 else return multiRefIdx
        else return multiRefIdx
      else return multiRefIdx
    else return multiRefIdx
  else return 0

def isp_mode (timd : Bool) (multiRefIdx : ℕ) : BinGet ℕ :=
  if cu.codesISP multiRefIdx then do
    let symbol ← decodeBin ⟨.ISPMode, if timd then 2 else 0⟩
    if symbol then
      let bin ← decodeBin ⟨.ISPMode, 1⟩
      return 1 + bin.toNat
    else return NOT_INTRA_SUBPARTITIONS
  else return NOT_INTRA_SUBPARTITIONS

/-- The context set for the first bins of a primary MPM. -/
def ispCtx (ispMode : ℕ) : ℕ := if ispMode = NOT_INTRA_SUBPARTITIONS then 1 else 0

def mpmCtx (ispMode multiRefIdx : ℕ) : ℕ := if ispCtx ispMode ≠ 0 then if multiRefIdx = 0 then 2 else 1 else 0

/-- `ipred_idx += decodeBin( ctxId )` -/
def addBin (ctxId : CtxId) (ipred_idx : ℕ) : BinGet ℕ := do
  let bin ← decodeBin ctxId
  return ipred_idx + bin.toNat

/-- A bin more if the index is above `low`. -/
def moreIdx (low ipred_idx : ℕ) : BinGet ℕ :=
  if ipred_idx > low then do
    let bin ← decodeBinEP
    return ipred_idx + bin.toNat
  else return ipred_idx

/-- `ipred_idx` of a primary MPM. -/
def primaryMpm (multiRefIdx ispMode : ℕ) : BinGet ℕ := do
  let ipred_idx ← (if multiRefIdx = 0 then addBin ⟨.IntraLumaPlanarFlag, ispCtx ispMode⟩ 0 else pure 1)
  let ipred_idx ← (if ipred_idx ≠ 0 then addBin ⟨.IntraLumaMPMIdx, mpmCtx ispMode multiRefIdx⟩ ipred_idx
    else pure ipred_idx)
  let ipred_idx ← moreIdx 1 ipred_idx
  let ipred_idx ← moreIdx 2 ipred_idx
  moreIdx 3 ipred_idx

/-- A secondary MPM or one of the other modes. -/
def otherMode : BinGet ℕ := do
  let secondMpmFlag ← decodeBin ⟨.IntraLumaSecondMpmFlag, 0⟩
  if secondMpmFlag then
    let idx ← decodeBinsEP 4
    return cu.intraMPM.getD (idx + NUM_PRIMARY_MOST_PROBABLE_MODES) 0
  else
    let ipred_mode ← xReadTruncBinCode (NUM_LUMA_MODE - NUM_MOST_PROBABLE_MODES)
    return cu.intraNonMPM.getD ipred_mode 0

/-- The mode itself, from `prev_intra_luma_pred_flag` on. -/
def luma_pred_mode (multiRefIdx ispMode : ℕ) : BinGet ℕ := do
  let mpmFlag ← (if multiRefIdx ≠ 0 then pure true else decodeBin ⟨.IntraLumaMpmFlag, 0⟩)
  if mpmFlag then
    let ipred_idx ← primaryMpm multiRefIdx ispMode
    return cu.intraMPM.getD ipred_idx 0
  else otherMode cu

/-- Before the mode: the reference line and the partitions, and whether there is a mode. -/
def refLineAndMode (p : IntraPrediction) : BinGet IntraPrediction := do
  let timd ← cu_timd_flag cu
  let multiRefIdx ← extend_ref_line cu timd
  let ispMode ← isp_mode cu timd multiRefIdx
  if cu.dimd then return { p with timd, multiRefIdx, ispMode }
  else if timd then return { p with timd, multiRefIdx, ispMode }
  else do
    let intraDir ← luma_pred_mode cu multiRefIdx ispMode
    return { p with timd, multiRefIdx, ispMode, intraDir }

def intra_luma_pred_modes : BinGet IntraPrediction :=
  if !cu.valid then return .initData
  else if cu.bdpcmMode ≠ 0 then
    return { IntraPrediction.initData with intraDir := if cu.bdpcmMode = 2 then VER_IDX else HOR_IDX }
  else do
    let tmpFlag ← (if cu.tmpSize then tmp_flag cu else pure false)
    if tmpFlag then return { IntraPrediction.initData with tmpFlag }
    else do
      let mipFlag ← mip_flag cu
      if mipFlag then mip_pred_mode cu { IntraPrediction.initData with mipFlag }
      else refLineAndMode cu .initData

/-! ## Transform trees

`transform_unit` up to the coded-block flags. -/

section TransformTree
variable (cs : CodingStructure) (cu : TransformCU)

def cbf_comp (compID : ComponentID) (prevCbf useISP : Bool) : BinGet Bool :=
  decodeBin (cu.cbfCtx compID prevCbf useISP)

def chromaCbfs (tu : TransformUnit) (part : TuPart) : BinGet ChromaCbfs := do
  if part.currArea.chromaFormat ≠ .chroma400 && cu.codesChroma cs part then
    if !(cu.sbtInfo.isSome && tu.noResidual) then
      let cb ← cbf_comp cu .Cb false false
      let cr ← cbf_comp cu .Cr cb false
      return ⟨cb, cr⟩
    else return ⟨false, false⟩
  else return ⟨false, false⟩

/-- The luma flag, read or inferred from the units read before. -/
def lumaCbf (earlier : List TransformUnit) (tu : TransformUnit) (part : TuPart) (subTuCounter : Option ℕ)
    (sigChroma : Bool) : BinGet Bool := do
  let trDepth := part.currTrDepth
  if !cu.isIntra && trDepth = 0 && !sigChroma then return true
  else if cu.sbtInfo.isSome && tu.noResidual then return false
  else if cu.sbtInfo.isSome && !sigChroma then return true
  else
    let inferredACT := cu.lumaCbfIsInferredACT trDepth sigChroma
    let rootCbfSoFar := ((earlier ++ [tu]).take (cu.nTus tu - 1)).any fun tu => tu.getCbfAtDepth .Y trDepth
    let (lastCbfIsInferred, previousCbf) := cu.inferLumaCbf tu subTuCounter inferredACT rootCbfSoFar
      (getPrevTuCbfAtDepth earlier .Y trDepth)
    if lastCbfIsInferred then return true else cbf_comp cu .Y previousCbf cu.hasIsp

/-- The flags of chroma are set where the unit may have chroma. -/
def setChromaCbfs (tu : TransformUnit) (part : TuPart) (chroma : ChromaCbfs) : TransformUnit :=
  let chromaCbfISP := part.currArea.chromaFormat ≠ .chroma400 && part.currArea.Cb.valid && cu.hasIsp
  if part.currArea.chromaFormat ≠ .chroma400 && (!cu.hasIsp || chromaCbfISP) then
    (tu.setCbfAtDepth .Cb part.currTrDepth chroma.Cb).setCbfAtDepth .Cr part.currTrDepth chroma.Cr
  else tu

def transform_unit (earlier : List TransformUnit) (tu : TransformUnit) (part : TuPart) (subTuCounter : Option ℕ) :
    BinGet TransformUnit := do
  let chroma ← chromaCbfs cs cu tu part
  if cu.chType = .luma then
    let cbfY ← lumaCbf cu earlier tu part subTuCounter (chroma.sigChroma part.currArea.chromaFormat)
    return setChromaCbfs cu (tu.setCbfAtDepth .Y part.currTrDepth cbfY) part chroma
  else return setChromaCbfs cu tu part chroma

/-- Whether the current part is split. -/
def canSplit (part : TuPart) : Checked Bool := do
  let maxTr ← part.canSplit cs cu .tuMaxTrSplit
  let sbt ← part.canSplitSbt cs cu
  if !(maxTr || sbt) && cu.hasIsp then part.canSplit cs cu cu.ispType
  else return maxTr || sbt

/-- `units` are the transform units read so far, and `levels` bounds the recursion. -/
def transform_tree : (levels : ℕ) → TuPart → (subTuIdx : Option ℕ) → (units : List TransformUnit) →
    BinGet (List TransformUnit)
  | 0, _, _, _ => throw "unending"
  | levels + 1, part, subTuIdx, units => do
    if ← canSplit cs cu part then
      let areas ← part.split cs cu
      (part.parts areas).foldlM (fun units child =>
        transform_tree levels child (subTuIdx.map (· + child.currPartIdx)) units) units
    else
      let tu ← transform_unit cs cu units (part.newUnit cs cu) part subTuIdx
      return units ++ [tu]

end TransformTree

end ECM.DecoderLib.CABACReader
