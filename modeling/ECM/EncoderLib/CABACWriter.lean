import ECM.CommonLib.IntraMpm
import ECM.CommonLib.TransformUnits

/-! # Binarizations of the encoder

The helper functions of `CABACWriter`. -/

namespace ECM.EncoderLib.CABACWriter
open CommonLib CommonLib.Bins Lib.Codec

/-- The loop of `unary_max_symbol`: `left` bins more. -/
def unarySymbolBins (symbol : ℕ) (ctxId0 ctxIdN : CtxId) : (left binsWritten : ℕ) → BinPut Unit
  | 0, _ => pure ()
  | left + 1, binsWritten => do
    encodeBin (symbol > binsWritten) (if binsWritten = 0 then ctxId0 else ctxIdN)
    unarySymbolBins symbol ctxId0 ctxIdN left (binsWritten + 1)

def unary_max_symbol (symbol : ℕ) (ctxId0 ctxIdN : CtxId) (maxSymbol : ℕ) : BinPut Unit := do
  check (symbol > maxSymbol) "symbol > maxSymbol"
  unarySymbolBins symbol ctxId0 ctxIdN (min (symbol + 1) maxSymbol) 0

/-- `bins <<= 1; bins++;`, `symbol` times. -/
def unaryOnes : (symbol bins : ℕ) → ℕ
  | 0, bins => bins
  | symbol + 1, bins => unaryOnes symbol (u32 (bins <<< 1) + 1)

def unary_max_eqprob (symbol maxSymbol : ℕ) : BinPut Unit :=
  if maxSymbol = 0 then pure ()
  else do
    let bins := unaryOnes symbol 0
    let codeLast := maxSymbol > symbol
    let numBins := if codeLast then symbol + 1 else symbol
    check (¬numBins ≤ 32) "Unspecified error"
    encodeBinsEP (if codeLast then u32 (bins <<< 1) else bins) numBins

/-- The loop of `exp_golomb_eqprob`, at most `rounds` times round: the prefix and its
length, and what is left for the suffix of `count` bins. -/
def expGolombPrefix : (rounds symbol count bins numBins : ℕ) → ℕ × ℕ × ℕ × ℕ
  | 0, symbol, count, bins, numBins => (bins, numBins, symbol, count)
  | rounds + 1, symbol, count, bins, numBins =>
    if symbol ≥ u32 (1 <<< count) then
      expGolombPrefix rounds (symbol - u32 (1 <<< count)) (count + 1) (u32 (bins <<< 1) + 1) (numBins + 1)
    else (bins, numBins, symbol, count)

def exp_golomb_eqprob (symbol count : ℕ) : BinPut Unit := do
  let (bins, numBins, symbol, count) := expGolombPrefix (symbol + 1) symbol count 0 0
  encodeBinsEP (u32 (bins <<< 1)) (numBins + 1)
  encodeBinsEP symbol count

def xWriteTruncBinCode (symbol maxSymbol : ℕ) : BinPut Unit := do
  let thresh ← truncBinThresh maxSymbol
  let val := 1 <<< thresh
  check (¬val ≤ maxSymbol) "val <= maxSymbol"
  check (¬symbol < maxSymbol) "symbol < maxSymbol"
  let b := maxSymbol - val
  if symbol < val - b then encodeBinsEP symbol thresh
  else encodeBinsEP (symbol + (val - b)) (thresh + 1)

def code_unary_fixed (symbol : ℕ) (ctxId : CtxId) (unary_max fixed : ℕ) : BinPut Unit := do
  encodeBin (symbol ≤ unary_max) ctxId
  if symbol ≤ unary_max then unary_max_eqprob symbol unary_max
  else encodeBinsEP (symbol - unary_max - 1) fixed

end ECM.EncoderLib.CABACWriter

/-! # Writing the control parameters of the in-loop filters

The part of `CABACWriter` before the coding tree of a CTU. -/

namespace ECM.EncoderLib.CABACWriter
open CommonLib CommonLib.Bins CommonLib.InLoopFilter Lib.Codec Lib.Loop

/-- The same bin `n` times. -/
def repeatBin (bin : BinPut Unit) : (n : ℕ) → BinPut Unit
  | 0 => pure ()
  | n + 1 => do
    bin
    repeatBin bin n

/-! ## Bilateral filters -/

/-- The flags for the block `i`. -/
def bifBlock (useBIF : Bool) (ctxId : CtxId) (bifParams : BifFlags) (i : ℕ) : BinPut Unit :=
  if ¬useBIF then pure ()
  else do
    (if i = 0 then do
      encodeBinEP bifParams.allCtuOn
      if ¬bifParams.allCtuOn then encodeBinEP bifParams.frmOn else pure ()
    else pure () : BinPut Unit)
    if ¬bifParams.allCtuOn ∧ bifParams.frmOn then encodeBin (bifParams.ctuOn i) ctxId else pure ()

def bif_blocks (pps : PPS) (bifParams : BifParams) : BinPut Unit :=
  forRange 0 bifParams.numBlocks (bifBlock pps.useBIF ⟨.BifCtrlFlags, 0⟩ bifParams.toBifFlags)

def chromaBifCb (pps : PPS) (chromaBifParams : ChromaBifParams) : BinPut Unit :=
  forRange 0 chromaBifParams.numBlocks
    (bifBlock pps.useChromaBIF ⟨.ChromaBifCtrlFlagsCb, 0⟩ chromaBifParams.cb)

def chromaBifCr (pps : PPS) (chromaBifParams : ChromaBifParams) : BinPut Unit :=
  forRange 0 chromaBifParams.numBlocks
    (bifBlock pps.useChromaBIF ⟨.ChromaBifCtrlFlagsCr, 0⟩ chromaBifParams.cr)

/-! ## Sample adaptive offset -/

/-- The offsets that are coded, in the order of their classes. -/
def codedOffsets (ctbPars : SAOOffset) : List ℤ :=
  if ctbPars.typeIdc = SAO_TYPE_START_BO then
    (List.range 4).map fun i => ctbPars.offset ((ctbPars.typeAuxInfo + i) % NUM_SAO_BO_CLASSES)
  else ((List.range NUM_SAO_EO_CLASSES).filter (· ≠ SAO_CLASS_EO_PLAIN)).map ctbPars.offset

def sao_offset_type (ctbPars : SAOOffset) : BinPut Unit :=
  if ctbPars.modeIdc = .OFF then encodeBin false ⟨.SaoTypeIdx, 0⟩
  else if ctbPars.typeIdc = SAO_TYPE_START_BO then do
    encodeBin true ⟨.SaoTypeIdx, 0⟩
    encodeBinEP false
  else do
    check (¬ctbPars.typeIdc < SAO_TYPE_START_BO) "Unspecified error"
    encodeBin true ⟨.SaoTypeIdx, 0⟩
    encodeBinEP true

/-- What follows the absolute values. -/
def sao_offset_mode (ctbPars : SAOOffset) (isFirstCompOfChType : Prop) [Decidable isFirstCompOfChType] :
    BinPut Unit :=
  if ctbPars.typeIdc = SAO_TYPE_START_BO then do
    (codedOffsets ctbPars).forM fun offset =>
      if offset ≠ 0 then encodeBinEP (offset < 0) else pure ()
    encodeBinsEP ctbPars.typeAuxInfo NUM_SAO_BO_CLASSES_LOG2
  else if isFirstCompOfChType then do
    check (ctbPars.typeIdc - SAO_TYPE_START_EO < 0) "sao edge offset class is outside valid range"
    encodeBinsEP (ctbPars.typeIdc - SAO_TYPE_START_EO).toNat NUM_SAO_EO_TYPES_LOG2
  else pure ()

def sao_offsets (ctbPars : SAOOffset) (isFirstCompOfChType : Prop) [Decidable isFirstCompOfChType]
    (bitDepth : ℕ) : BinPut Unit :=
  if ctbPars.modeIdc = .NEW then do
    (codedOffsets ctbPars).forM fun offset => unary_max_eqprob offset.natAbs (getMaxOffsetQVal bitDepth)
    sao_offset_mode ctbPars isFirstCompOfChType
  else pure ()

def sao_offset_pars (ctbPars : SAOOffset) (compID : ComponentID) (sliceEnabled : Bool) (bitDepth : ℕ) :
    BinPut Unit :=
  if ¬sliceEnabled then do
    check (ctbPars.modeIdc ≠ .OFF) "Sao must be off, if it is disabled on slice level"
    pure ()
  else do
    let isFirstCompOfChType := getFirstComponentOfChannel compID.toChannelType = compID
    (if isFirstCompOfChType then sao_offset_type ctbPars else pure () : BinPut Unit)
    sao_offsets ctbPars isFirstCompOfChType bitDepth

/-- `isLeftMerge` and `isAboveMerge`. -/
def isMerge (saoPars : SAOBlkParam) (mergeType : ℤ) : Bool :=
  (saoPars .Y).modeIdc = .MERGE ∧ (saoPars .Y).typeIdc = mergeType

/-- With `onlyEstMergeInfo = false`. -/
def sao_block_pars (saoPars : SAOBlkParam) (bitDepths : ChannelType → ℕ) (sliceEnabled : ComponentID → Bool)
    (leftMergeAvail aboveMergeAvail : Bool) : BinPut Unit := do
  let isLeftMerge := leftMergeAvail && isMerge saoPars SAO_MERGE_LEFT
  (if leftMergeAvail then encodeBin isLeftMerge ⟨.SaoMergeFlag, 0⟩ else pure () : BinPut Unit)
  let isAboveMerge := aboveMergeAvail && !isLeftMerge && isMerge saoPars SAO_MERGE_ABOVE
  (if aboveMergeAvail ∧ ¬isLeftMerge then encodeBin isAboveMerge ⟨.SaoMergeFlag, 0⟩
    else pure () : BinPut Unit)
  if ¬isLeftMerge ∧ ¬isAboveMerge then
    ComponentID.all.forM fun compID =>
      sao_offset_pars (saoPars compID) compID (sliceEnabled compID) (bitDepths compID.toChannelType)
  else pure ()

def sao (cs : InLoopFilter.CodingStructure) (pic : PicControl) (ctuRsAddr : ℕ) : BinPut Unit :=
  if ¬cs.sps.saoEnabledFlag then pure ()
  else if ¬cs.sliceSaoFlag .luma ∧ ¬cs.sliceSaoFlag .chroma then pure ()
  else
    let pos := cs.ctuPos ctuRsAddr
    sao_block_pars (pic.ctu ctuRsAddr).sao cs.sps.bitDepths (fun compID => cs.sliceSaoFlag compID.toChannelType)
      (cs.leftAvail pos) (cs.aboveAvail pos cs.pcv.maxCUHeight)

/-! ## Cross-component filters -/

/-- An index up to `count`; whether it is not zero has a context. -/
def controlIdcBins (idcVal count : ℕ) (ctxId : CtxId) : BinPut Unit := do
  encodeBin (idcVal ≠ 0) ctxId
  if idcVal > 0 then do
    repeatBin (encodeBinEP true) (idcVal - 1)
    if idcVal < count then encodeBinEP false else pure ()
  else pure ()

def codeCcSaoControlIdc (cs : InLoopFilter.CodingStructure) (idcVal : ℕ) (compID : ComponentID) (curIdx : ℕ)
    (controlIdc : ℕ → ℕ) (lumaPos : Position) (setNum : ℕ) : BinPut Unit := do
  check (idcVal > setNum) "Set index is too large"
  let ctxt := cs.neighbourCtx (cs.leftAvail lumaPos) (cs.aboveAvail lumaPos cs.pcv.maxCUWidth)
    (fun i => controlIdc i ≠ 0) curIdx
  let ctxt := ctxt + if compID = .Y then 0 else if compID = .Cb then 3 else 6
  controlIdcBins idcVal setNum ⟨.CcSaoControlIdc, ctxt⟩

/-- The index that the first code stands for. -/
def mappedIdc (idcVal : ℕ) : ℕ :=
  let pos0 := 1
  if idcVal = 0 then pos0 else if idcVal ≤ pos0 then idcVal - 1 else idcVal

def codeCcAlfFilterControlIdc (cs : InLoopFilter.CodingStructure) (idcVal : ℕ) (compID : ComponentID) (curIdx : ℕ)
    (filterControlIdc : ℕ → ℕ) (lumaPos : Position) (filterCount : ℕ) : BinPut Unit := do
  check (idcVal > filterCount) "Filter index is too large"
  let ctxt := cs.neighbourCtx (cs.leftAvail lumaPos) (cs.aboveAvail lumaPos cs.pcv.maxCUWidth)
    (fun i => filterControlIdc i ≠ 1) curIdx
  let ctxt := ctxt + if compID = .Cr then 3 else 0
  controlIdcBins (mappedIdc idcVal) filterCount ⟨.CcAlfFilterControlFlag, ctxt⟩

/-! ## Adaptive loop filter -/

def codeAlfCtuEnableFlag (cs : InLoopFilter.CodingStructure) (pic : PicControl) (ctuRsAddr : ℕ) (compID : ComponentID) :
    BinPut Unit :=
  if cs.sps.alfEnabledFlag ∧ cs.slice.tileGroupAlfEnabledFlag compID then
    let pos := cs.ctuPos ctuRsAddr
    let ctbAlfFlag := fun i => (pic.ctu i).alf.enableFlag compID
    let ctx := cs.neighbourCtx (cs.leftAvail pos) (cs.aboveAvail pos cs.pcv.maxCUHeight) ctbAlfFlag ctuRsAddr
    encodeBin (ctbAlfFlag ctuRsAddr) ⟨.ctbAlfFlag, compID.idx * 3 + ctx⟩
  else pure ()

/-- The filter set of a CTU with ALF on. -/
def alfFilterSetBins (filterSetIdx numAps : ℕ) : BinPut Unit :=
  let numAvailableFiltSets := numAps + NUM_FIXED_FILTER_SETS
  if numAvailableFiltSets > NUM_FIXED_FILTER_SETS then do
    let useTemporalFilt : Bool := filterSetIdx ≥ NUM_FIXED_FILTER_SETS
    encodeBin useTemporalFilt ⟨.AlfUseTemporalFilt, 0⟩
    if useTemporalFilt then do
      check (filterSetIdx - NUM_FIXED_FILTER_SETS ≥ numAvailableFiltSets - NUM_FIXED_FILTER_SETS)
        "temporal non-latest set"
      if numAps > 1 then
        xWriteTruncBinCode (filterSetIdx - NUM_FIXED_FILTER_SETS)
          (numAvailableFiltSets - NUM_FIXED_FILTER_SETS)
      else pure ()
    else do
      check (filterSetIdx ≥ NUM_FIXED_FILTER_SETS) "fixed set larger than temporal"
      xWriteTruncBinCode filterSetIdx NUM_FIXED_FILTER_SETS
  else do
    check (filterSetIdx ≥ NUM_FIXED_FILTER_SETS) "fixed set numavail < num_fixed"
    xWriteTruncBinCode filterSetIdx NUM_FIXED_FILTER_SETS

def codeAlfCtuFilterIndex (cs : InLoopFilter.CodingStructure) (alf : AlfCtuControl) (alfEnableLuma : Bool) : BinPut Unit :=
  if ¬cs.sps.alfEnabledFlag ∨ ¬alfEnableLuma then pure ()
  else if ¬alf.enableFlag .Y then pure ()
  else alfFilterSetBins alf.filterIndex cs.slice.tileGroupNumAps

/-- The alternative, of `numAlts`. -/
def alternativeBins (numOnes numAlts : ℕ) (ctxId : CtxId) : BinPut Unit := do
  check (¬numOnes < numAlts) "ctbAlfAlternative[ctuRsAddr] < numAlts"
  repeatBin (encodeBin true ctxId) numOnes
  if numOnes < numAlts - 1 then encodeBin false ctxId else pure ()

/-- `getAlfAPSs()[apsIdx]->getAlfAPSParam()`. -/
def alfAPSParam (cs : InLoopFilter.CodingStructure) (apsIdx : ℕ) : Checked AlfParam :=
  match cs.slice.alfAPSs apsIdx with
  | none => throw "no such APS"
  | some alfParam => pure alfParam

/-- For luma, with the number of alternatives of the APS of the filter set. -/
def codeAlfCtuAlternativeLuma (cs : InLoopFilter.CodingStructure) (alf : AlfCtuControl) (numAltLuma : ℕ) : BinPut Unit :=
  if cs.sps.alfEnabledFlag ∧ cs.slice.tileGroupAlfEnabledFlag .Y then
    if alf.enableFlag .Y ∧ alf.filterIndex ≥ NUM_FIXED_FILTER_SETS then
      alternativeBins (alf.alternative .Y) numAltLuma ⟨.ctbAlfAlternative, ComponentID.idx .Y⟩
    else pure ()
  else pure ()

def codeAlfCtuAlternativeChroma (cs : InLoopFilter.CodingStructure) (alf : AlfCtuControl) (compID : ComponentID) :
    BinPut Unit := do
  let alfParamRef ← alfAPSParam cs cs.slice.tileGroupApsIdChroma
  if cs.sps.alfEnabledFlag ∧ cs.slice.tileGroupAlfEnabledFlag compID then
    if alf.enableFlag compID then
      alternativeBins (alf.alternative compID) alfParamRef.numAlternativesChroma
        ⟨.ctbAlfAlternative, compID.idx⟩
    else pure ()
  else pure ()

/-- After the flag, for the luma component. -/
def alfLuma (cs : InLoopFilter.CodingStructure) (alf : AlfCtuControl) : BinPut Unit := do
  codeAlfCtuFilterIndex cs alf (cs.slice.tileGroupAlfEnabledFlag .Y)
  if alf.enableFlag .Y ∧ alf.filterIndex ≥ NUM_FIXED_FILTER_SETS then do
    let alfParam ← alfAPSParam cs (cs.slice.tileGroupApsIdLuma (alf.filterIndex - NUM_FIXED_FILTER_SETS))
    codeAlfCtuAlternativeLuma cs alf alfParam.numAlternativesLuma
  else pure ()

def alfComponent (cs : InLoopFilter.CodingStructure) (pic : PicControl) (ctuRsAddr : ℕ) (compID : ComponentID) : BinPut Unit :=
  if ¬cs.slice.tileGroupAlfEnabledFlag compID then pure ()
  else do
    let alf := (pic.ctu ctuRsAddr).alf
    codeAlfCtuEnableFlag cs pic ctuRsAddr compID
    if compID = .Y then alfLuma cs alf
    else if alf.enableFlag compID then codeAlfCtuAlternativeChroma cs alf compID
    else pure ()

/-! ## The CTU -/

def ccSaoComponent (cs : InLoopFilter.CodingStructure) (pic : PicControl) (ctuRsAddr : ℕ) (compID : ComponentID) :
    BinPut Unit :=
  if cs.slice.ccSaoEnabled compID then
    codeCcSaoControlIdc cs ((pic.ctu ctuRsAddr).ccSaoControl compID) compID ctuRsAddr
      (fun i => (pic.ctu i).ccSaoControl compID) (cs.ctuPos ctuRsAddr) (cs.slice.ccSaoSetNum compID)
  else pure ()

def ccAlfComponent (cs : InLoopFilter.CodingStructure) (pic : PicControl) (ctuRsAddr : ℕ) (compID : ComponentID) :
    BinPut Unit :=
  if cs.slice.ccAlfFilterEnabled compID then
    codeCcAlfFilterControlIdc cs ((pic.ctu ctuRsAddr).ccAlfFilterControl compID) compID ctuRsAddr
      (fun i => (pic.ctu i).ccAlfFilterControl compID) (cs.ctuPos ctuRsAddr)
      (cs.slice.ccAlfFilterCount compID)
  else pure ()

/-- Up to `coding_tree`, with `skipSao` and `skipAlf` false. -/
def coding_tree_unit (cs : InLoopFilter.CodingStructure) (pic : PicControl) (ctuRsAddr : ℕ) : BinPut Unit := do
  sao cs pic ctuRsAddr
  (validComponents cs.pcv.chrFormat).forM (ccSaoComponent cs pic ctuRsAddr)
  ComponentID.all.forM (alfComponent cs pic ctuRsAddr)
  ((validComponents cs.pcv.chrFormat).drop 1).forM (ccAlfComponent cs pic ctuRsAddr)

/-- What `encodeCtus` writes before the coding tree of a CTU. -/
def encodeCtu (cs : InLoopFilter.CodingStructure) (pic : PicControl) (ctuRsAddr : ℕ) : BinPut Unit := do
  (if ctuRsAddr = 0 then do
    bif_blocks cs.pps pic.bifParam
    chromaBifCb cs.pps pic.chromaBifParam
    chromaBifCr cs.pps pic.chromaBifParam
  else pure () : BinPut Unit)
  coding_tree_unit cs pic ctuRsAddr

end ECM.EncoderLib.CABACWriter

/-! # Luma intra modes of the encoder

`CABACWriter::intra_luma_pred_modes` and what it codes before the mode. -/

namespace ECM.EncoderLib.CABACWriter
open CommonLib CommonLib.Bins Lib.Codec

variable (cu : IntraCu) (p : IntraPrediction)

def tmp_flag : BinPut Unit := if cu.codesTmp then encodeBin p.tmpFlag ⟨.TmpFlag, cu.ctxTmpFlag⟩ else pure ()

def mip_flag : BinPut Unit := if cu.codesMip then encodeBin p.mipFlag ⟨.MipFlag, cu.ctxMipFlag⟩ else pure ()

def mip_pred_mode : BinPut Unit := do
  encodeBinEP p.mipTransposedFlag
  xWriteTruncBinCode p.intraDir cu.getNumModesMip

def cu_timd_flag : BinPut Unit := if cu.codesTimd then encodeBin p.timd ⟨.TimdFlag, cu.ctxTimdFlag⟩ else pure ()

/-- One bin for each reference line that it is not. -/
def extend_ref_line : BinPut Unit :=
  if cu.codesMRL then do
    encodeBin (p.multiRefIdx ≠ MULTI_REF_LINE_IDX 0) ⟨.MultiRefLineIdx, if p.timd then 5 else 0⟩
    if p.multiRefIdx ≠ MULTI_REF_LINE_IDX 0 then do
      encodeBin (p.multiRefIdx ≠ MULTI_REF_LINE_IDX 1) ⟨.MultiRefLineIdx, if p.timd then 6 else 1⟩
      if p.multiRefIdx ≠ MULTI_REF_LINE_IDX 1 ∧ !p.timd then do
        encodeBin (p.multiRefIdx ≠ MULTI_REF_LINE_IDX 2) ⟨.MultiRefLineIdx, 2⟩
        if p.multiRefIdx ≠ MULTI_REF_LINE_IDX 2 then do
          encodeBin (p.multiRefIdx ≠ MULTI_REF_LINE_IDX 3) ⟨.MultiRefLineIdx, 3⟩
          if p.multiRefIdx ≠ MULTI_REF_LINE_IDX 3 then
            encodeBin (p.multiRefIdx ≠ MULTI_REF_LINE_IDX 4) ⟨.MultiRefLineIdx, 4⟩
          else pure ()
        else pure ()
      else pure ()
    else pure ()
  else pure ()

def isp_mode : BinPut Unit :=
  if cu.codesISP p.multiRefIdx then
    if p.ispMode = NOT_INTRA_SUBPARTITIONS then encodeBin false ⟨.ISPMode, if p.timd then 2 else 0⟩
    else do
      encodeBin true ⟨.ISPMode, if p.timd then 2 else 0⟩
      encodeBin (p.ispMode - 1 ≠ 0) ⟨.ISPMode, 1⟩
  else liftM (check (p.ispMode ≠ NOT_INTRA_SUBPARTITIONS) "cu.ispMode != 0")

/-- The first of the `count` entries that is the mode, `count` if there is none. -/
def modeIdx (modes : List ℕ) (count mode : ℕ) : ℕ := ((List.range count).find? fun idx => mode = modes.getD idx 0).getD count

/-- The context set for the first bins of a primary MPM. -/
def ispCtx (ispMode : ℕ) : ℕ := if ispMode = NOT_INTRA_SUBPARTITIONS then 1 else 0

def mpmCtx (ispMode multiRefIdx : ℕ) : ℕ := if ispCtx ispMode ≠ 0 then if multiRefIdx = 0 then 2 else 1 else 0

/-- `mpm_idx` -/
def primaryMpm (mpm_idx : ℕ) : BinPut Unit := do
  (if p.multiRefIdx = 0 then encodeBin (mpm_idx > 0) ⟨.IntraLumaPlanarFlag, ispCtx p.ispMode⟩ else pure ())
  (if mpm_idx ≠ 0 then encodeBin (mpm_idx > 1) ⟨.IntraLumaMPMIdx, mpmCtx p.ispMode p.multiRefIdx⟩ else pure ())
  (if mpm_idx > 1 then encodeBinEP (mpm_idx > 2) else pure ())
  (if mpm_idx > 2 then encodeBinEP (mpm_idx > 3) else pure ())
  (if mpm_idx > 3 then encodeBinEP (mpm_idx > 4) else pure ())

/-- A secondary MPM or one of the other modes. -/
def otherMode : BinPut Unit := do
  let secondaryMPMIdx := modeIdx (cu.intraMPM.drop NUM_PRIMARY_MOST_PROBABLE_MODES) NUM_SECONDARY_MOST_PROBABLE_MODES p.intraDir
  if secondaryMPMIdx < NUM_SECONDARY_MOST_PROBABLE_MODES then do
    encodeBin true ⟨.IntraLumaSecondMpmFlag, 0⟩
    encodeBinsEP secondaryMPMIdx 4
  else do
    encodeBin false ⟨.IntraLumaSecondMpmFlag, 0⟩
    xWriteTruncBinCode (modeIdx cu.intraNonMPM NUM_NON_MPM_MODES p.intraDir) (NUM_LUMA_MODE - NUM_MOST_PROBABLE_MODES)

/-- The mode itself, from `prev_intra_luma_pred_flag` on. -/
def luma_pred_mode : BinPut Unit := do
  let mpm_idx := modeIdx cu.intraMPM NUM_PRIMARY_MOST_PROBABLE_MODES p.intraDir
  (if p.multiRefIdx ≠ 0 then liftM (check (mpm_idx ≥ NUM_PRIMARY_MOST_PROBABLE_MODES) "use of non-MPM")
    else encodeBin (mpm_idx < NUM_PRIMARY_MOST_PROBABLE_MODES) ⟨.IntraLumaMpmFlag, 0⟩)
  if mpm_idx < NUM_PRIMARY_MOST_PROBABLE_MODES then primaryMpm p mpm_idx else otherMode cu p

/-- Before the mode: the reference line and the partitions, and whether there is a mode. -/
def refLineAndMode : BinPut Unit := do
  cu_timd_flag cu p
  extend_ref_line cu p
  isp_mode cu p
  if cu.dimd then pure () else if p.timd then pure () else luma_pred_mode cu p

def intra_luma_pred_modes : BinPut Unit :=
  if !cu.valid then pure ()
  else if cu.bdpcmMode ≠ 0 then pure ()
  else do
    (if cu.tmpSize then tmp_flag cu p else pure ())
    if cu.tmpSize && p.tmpFlag then pure ()
    else do
      mip_flag cu p
      if p.mipFlag then mip_pred_mode cu p else refLineAndMode cu p

/-! ## Transform trees

`transform_unit` up to the coded-block flags. -/

section TransformTree
variable (cs : CodingStructure) (cu : TransformCU)

/-- `cs.getTU`: the unit with those before it. The sub-partitions are counted from the first
unit, the other units are found by their position. -/
def getTU (units : List TransformUnit) (pos : Position) (subTuIdx : Option ℕ) :
    Option (List TransformUnit × TransformUnit) := do
  let idx ← if cu.usesIsp then subTuIdx
    else units.findIdx? fun tu => (tu.area.blockOf cu.chType).contains pos
  let tu ← units[idx]?
  return (units.take idx, tu)

def cbf_comp (cbf : Bool) (compID : ComponentID) (prevCbf useISP : Bool) : BinPut Unit :=
  encodeBin cbf (cu.cbfCtx compID prevCbf useISP)

/-- The default of `ChromaCbfs` is `true` for both. -/
def chromaCbfs (tu : TransformUnit) (part : TuPart) : BinPut ChromaCbfs :=
  if part.currArea.chromaFormat ≠ .chroma400 then
    if cu.codesChroma cs part then do
      let cb := tu.getCbfAtDepth .Cb part.currTrDepth
      let cr := tu.getCbfAtDepth .Cr part.currTrDepth
      if !(cu.sbtInfo.isSome && tu.noResidual) then
        cbf_comp cu cb .Cb false false
        cbf_comp cu cr .Cr cb false
      return ⟨cb, cr⟩
    else if cs.isDualITree then return ⟨false, false⟩
    else return ⟨true, true⟩
  else if cs.isDualITree then return ⟨false, false⟩
  else return ⟨true, true⟩

/-- Luma, from the units before this one. -/
def lumaCbf (earlier : List TransformUnit) (tu : TransformUnit) (part : TuPart) (subTuCounter : Option ℕ)
    (sigChroma : Bool) : BinPut Unit := do
  let trDepth := part.currTrDepth
  let cbf := tu.getCbfAtDepth .Y trDepth
  if !cu.isIntra && trDepth = 0 && !sigChroma then
    check (!cbf) "Luma cbf must be true for inter units with no chroma coeffs"
  else if cu.sbtInfo.isSome && tu.noResidual then
    check cbf "Luma cbf must be false for inter sbt no-residual tu"
  else if cu.sbtInfo.isSome && !sigChroma then
    check (!cbf) "Luma cbf must be true for inter sbt residual tu"
  else
    let inferredACT := cu.lumaCbfIsInferredACT trDepth sigChroma
    check (inferredACT && !cbf) "adaptive color transform cannot have all zero coefficients"
    let rootCbfSoFar := (earlier.take (subTuCounter.getD 0)).any fun tu => tu.getCbfAtDepth .Y trDepth
    let (lastCbfIsInferred, previousCbf) := cu.inferLumaCbf tu subTuCounter inferredACT rootCbfSoFar
      (getPrevTuCbfAtDepth earlier .Y trDepth)
    if !lastCbfIsInferred then cbf_comp cu cbf .Y previousCbf cu.hasIsp

def transform_unit (earlier : List TransformUnit) (tu : TransformUnit) (part : TuPart) (subTuCounter : Option ℕ) :
    BinPut Unit := do
  check (tu.depth ≠ part.currTrDepth) " transform unit should be not be futher partitioned"
  let chroma ← chromaCbfs cs cu tu part
  if cu.chType = .luma then
    lumaCbf cu earlier tu part subTuCounter (chroma.sigChroma part.currArea.chromaFormat)

/-- The checks on a split, against what the partitioner can split. -/
def checkSplit (part : TuPart) (split : Bool) : Checked Unit := do
  if ← part.canSplit cs cu .tuMaxTrSplit then check (!split) "transform split implied"
  else if ← part.canSplitSbt cs cu then check (!split) "transform split implied - sbt"
  else check (split && !cu.hasIsp) "transform split not allowed with QTBT"

/-- `units` are the transform units of the coding unit, and `levels` bounds the recursion. -/
def transform_tree (units : List TransformUnit) : (levels : ℕ) → TuPart → (subTuIdx : Option ℕ) → BinPut Unit
  | 0, _, _ => check True "unending"
  | levels + 1, part, subTuIdx =>
    match getTU cu units (part.currArea.blockOf cu.chType).pos subTuIdx with
    | none => check True "null pointer"
    | some (earlier, tu) => do
      let split : Bool := tu.depth > part.currTrDepth
      checkSplit cs cu part split
      if split then
        let areas ← part.split cs cu
        (part.parts areas).forM fun child =>
          transform_tree units levels child (subTuIdx.map (· + child.currPartIdx))
      else transform_unit cs cu earlier tu part subTuIdx

end TransformTree

end ECM.EncoderLib.CABACWriter
