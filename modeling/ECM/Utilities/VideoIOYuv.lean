import ECM.CommonLib.InLoopFilter
import ECM.CommonLib.Reshape

/-! # Planes of a picture file

How a plane is read from a file and written to it. The memory of the picture is a map of addresses, an
address that of a `Pel`; the file is what is still to be read of it, or what has been written. -/

namespace ECM.Utilities.VideoIOYuv
open CommonLib Lib.Loop
open CommonLib.Lmcs (toPel)

abbrev Memory := ℕ → ℤ

def getComponentScaleX (id : ComponentID) (fmt : ChromaFormat) : ℕ := getChannelTypeScaleX id.toChannelType fmt

def getComponentScaleY (id : ComponentID) (fmt : ChromaFormat) : ℕ := getChannelTypeScaleY id.toChannelType fmt

/-- What `return false` is after a read behind the end of the file. -/
def endOfFile : String := "end of file"

/-- `fd.read( buf, n )`: what is read, and what remains. -/
def readBytes (fd : List ℕ) (n : ℕ) : Checked (List ℕ × List ℕ) :=
  if n ≤ fd.length then .ok (fd.take n, fd.drop n) else .error endOfFile

/-- `for( x = lo; x < hi; x++ ) base[x] = value`, with a value that may be read from the memory. -/
def fill (lo hi base : ℕ) (value : Memory → ℕ → Checked ℤ) (mem : Memory) : Checked Memory :=
  loop (fun i mem => do
    let v ← value mem (lo + i)
    return Function.update mem (base + (lo + i)) v) (hi - lo) mem

/-! ## Reading -/

/-- A sample of a row of the file. -/
def sampleAt (is16bit : Bool) (buf : List ℕ) (i : ℕ) : Checked ℤ := do
  if is16bit then
    let low ← readAt buf (i * 2 + 0)
    let high ← readAt buf (i * 2 + 1)
    return toPel (low ||| high <<< 8 : ℕ)
  else
    let b ← readAt buf i
    return b

structure Reading where
  fd : List ℕ
  buf : List ℕ
  pDstBuf : ℕ
  mem : Memory

/-- The sample of the file from which the sample `x` of the picture is taken. -/
def fileX (csx_file csx_dest x : ℕ) : ℕ :=
  if csx_file < csx_dest then x <<< (csx_dest - csx_file) else x >>> (csx_file - csx_dest)

/-- The sizes that `readPlane` computes first. -/
structure Geometry where
  csx_file : ℕ
  csy_file : ℕ
  csx_dest : ℕ
  csy_dest : ℕ
  width_dest : ℕ
  height_dest : ℕ
  full_width_dest : ℕ
  full_height_dest : ℕ
  stride_dest : ℕ
  stride_file : ℕ

def geometry (is16bit : Bool) (stride444 width444 height444 pad_x444 pad_y444 : ℕ) (compID : ComponentID)
    (destFormat fileFormat : ChromaFormat) : Geometry :=
  let csx_file := getComponentScaleX compID fileFormat
  let csx_dest := getComponentScaleX compID destFormat
  let csy_dest := getComponentScaleY compID destFormat
  { csx_file
    csy_file := getComponentScaleY compID fileFormat
    csx_dest
    csy_dest
    width_dest := width444 >>> csx_dest
    height_dest := height444 >>> csy_dest
    full_width_dest := width444 >>> csx_dest + pad_x444 >>> csx_dest
    full_height_dest := height444 >>> csy_dest + pad_y444 >>> csy_dest
    stride_dest := stride444 >>> csx_dest
    stride_file := (width444 * (if is16bit then 2 else 1)) >>> csx_file }

/-- A line of the picture, from the line of the file that was read last. -/
def destLine (g : Geometry) (is16bit : Bool) (dst : ℕ) (s : Reading) : Checked Reading := do
  let mem ← fill 0 g.width_dest s.pDstBuf (fun _ x => sampleAt is16bit s.buf (fileX g.csx_file g.csx_dest x)) s.mem
  -- process right hand side padding
  let val := mem (dst + sub32 g.width_dest 1)
  let mem ← fill g.width_dest g.full_width_dest s.pDstBuf (fun _ _ => .ok val) mem
  return { s with mem, pDstBuf := s.pDstBuf + g.stride_dest }

/-- A new line of the file, if one begins at `y444`. -/
def fileLine (g : Geometry) (y444 : ℕ) (s : Reading) : Checked Reading := do
  if y444 &&& (1 <<< g.csy_file - 1) = 0 then
    let (buf, fd) ← readBytes s.fd g.stride_file
    return { s with buf, fd }
  else return s

/-- The body of the loop over `y444`. -/
def readLine (g : Geometry) (is16bit : Bool) (dst y444 : ℕ) (s : Reading) : Checked Reading := do
  let s ← fileLine g y444 s
  if y444 &&& (1 <<< g.csy_dest - 1) = 0 then destLine g is16bit dst s else return s

/-- The lower padding: the line `y` of the picture is copied from the line above. -/
def padLines (g : Geometry) (dst : ℕ) (mem : Memory) : Checked Memory :=
  loop (fun i mem =>
    let pDstPad := dst + g.stride_dest * g.height_dest + g.stride_dest * i
    fill 0 g.full_width_dest pDstPad (fun mem x => .ok (mem (pDstPad - g.stride_dest + x))) mem)
    (g.full_height_dest - g.height_dest) mem

/-- The memory and the rest of the file. -/
def readPlane (dst : ℕ) (mem : Memory) (fd : List ℕ) (is16bit : Bool) (stride444 width444 height444 pad_x444 pad_y444 : ℕ)
    (compID : ComponentID) (destFormat fileFormat : ChromaFormat) (fileBitDepth : ℕ) : Checked (Memory × List ℕ) := do
  let g := geometry is16bit stride444 width444 height444 pad_x444 pad_y444 compID destFormat fileFormat
  if compID ≠ .Y ∧ (fileFormat = .chroma400 ∨ destFormat = .chroma400) then
    let mem ←
      if destFormat ≠ .chroma400 then
        loop (fun y mem => fill 0 g.full_width_dest (dst + g.stride_dest * y)
          (fun _ _ => .ok (toPel (1 <<< (fileBitDepth - 1) : ℕ))) mem) g.full_height_dest mem
      else pure mem
    let fd := if fileFormat ≠ .chroma400 then fd.drop (height444 >>> g.csy_file * g.stride_file) else fd
    return (mem, fd)
  else
    let s ← loop (readLine g is16bit dst) height444
      { fd, buf := List.replicate g.stride_file 0, pDstBuf := dst, mem }
    let mem ← padLines g dst s.mem
    return (mem, s.fd)

/-! ## Writing -/

/-- The bytes that a sample is written as. -/
def writeSample (is16bit : Bool) (x : ℕ) (v : ℤ) (buf : List ℕ) : Checked (List ℕ) :=
  if is16bit then do
    let buf ← writeAt buf (2 * x) (v % 256).toNat
    writeAt buf (2 * x + 1) (v / 256 % 256).toNat
  else writeAt buf x (v % 256).toNat

structure Writing where
  fd : List ℕ
  buf : List ℕ
  pSrcBuf : ℕ

/-- The body of the loop over `y444`, for a line with the samples `value`. -/
def writeLine (csy_file csy_src stride_src : ℕ) (line : ℕ → List ℕ → Checked (List ℕ)) (y444 : ℕ) (s : Writing) :
    Checked Writing := do
  let s ←
    if y444 &&& (1 <<< csy_file - 1) = 0 then do
      let buf ← line s.pSrcBuf s.buf
      pure { s with buf, fd := s.fd ++ buf }
    else pure s
  if y444 &&& (1 <<< csy_src - 1) = 0 then return { s with pSrcBuf := s.pSrcBuf + stride_src } else return s

/-- Without packing, `writePYUV` being false: the file with what has been written. -/
def writePlane (orgWidth orgHeight : ℕ) (fd : List ℕ) (src : ℕ) (mem : Memory) (is16bit : Bool)
    (stride_src width444 height444 : ℕ) (compID : ComponentID) (srcFormat fileFormat : ChromaFormat)
    (fileBitDepth : ℕ) : Checked (List ℕ) := do
  let csx_file := getComponentScaleX compID fileFormat
  let csy_file := getComponentScaleY compID fileFormat
  let csx_src := getComponentScaleX compID srcFormat
  let csy_src := getComponentScaleY compID srcFormat
  let width_file := width444 >>> csx_file
  let height_file := height444 >>> csy_file
  check (csx_file ≠ csx_src) "Not supported"
  let stride_file := (orgWidth * (if is16bit then 2 else 1)) >>> csx_file
  let buf := List.replicate stride_file 0
  if compID ≠ .Y ∧ (fileFormat = .chroma400 ∨ srcFormat = .chroma400) then
    if fileFormat ≠ .chroma400 then
      let s ← loop (fun _ (s : Writing) => do
        let buf ← loop (fun x buf => writeSample is16bit x (1 <<< (fileBitDepth - 1) : ℕ) buf) width_file s.buf
        return { s with buf, fd := s.fd ++ buf }) height_file { fd, buf, pSrcBuf := src }
      return s.fd
    else return fd
  else
    let line (pSrcBuf : ℕ) (buf : List ℕ) : Checked (List ℕ) :=
      loop (fun x buf => writeSample is16bit x
        (mem (pSrcBuf + if csx_file < csx_src then x >>> (csx_src - csx_file) else x <<< (csx_file - csx_src))) buf)
        width_file buf
    let zeroLine (_ : ℕ) (buf : List ℕ) : Checked (List ℕ) :=
      loop (fun x buf => writeSample is16bit x 0 buf) (orgWidth >>> csx_file) buf
    let s ← loop (writeLine csy_file csy_src stride_src line) height444 { fd, buf, pSrcBuf := src }
    let s ← loop (fun i => writeLine csy_file csy_src stride_src zeroLine (height444 + i)) (orgHeight - height444) s
    return s.fd

end ECM.Utilities.VideoIOYuv
