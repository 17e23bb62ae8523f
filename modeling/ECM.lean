import ECM.Nal.RoundTrip
import ECM.Slice.EntryPoints
import ECM.ParameterSets.Store
import ECM.RandomAccess.Skip
import ECM.Output.Layers
import ECM.Quant.States
import ECM.ParameterSets.OutputLayerSets
import ECM.Extraction.Filters
import ECM.Sei.Timing
import ECM.StreamMerge.Layers
import ECM.InLoop.PictureSyntax
import ECM.Palette.RoundTrip
import ECM.CommonLib.BitStreamPeek
import ECM.Nal.StartCodeCount
import ECM.DecoderLib.BinDecoderBypass
import ECM.Cabac.ProbabilityStates
import ECM.Cabac.ContextStore
import ECM.Poc.LookAhead
import ECM.Hls.PredWeightTable
import ECM.Residual.HiddenSign
import ECM.Hls.CcSaoSyntax
import ECM.Hls.ScalingListSyntax
import ECM.Output.MixedTypes
import ECM.Quant.ChromaQpTables
import ECM.RefPics.AmvpMerge
import ECM.RefPics.CombinedList
import ECM.Output.FlushLayer
import ECM.Slices.EntryPoints
import ECM.RefPics.Available
import ECM.RefPics.Marking
import ECM.Sei.DecodeRuns
import ECM.Hls.AlfApsSyntax
import ECM.Motion.History
import ECM.Palette.PredictorUpdate
import ECM.Output.BufferReuse
import ECM.Residual.SignBitHiding
import ECM.Intra.LumaModes
import ECM.Partition.DualTree
import ECM.InLoop.LumaMapping
import ECM.Palette.Overruns
import ECM.Sei.NestingOls
import ECM.Motion.SignPrediction
import ECM.InLoop.Deblocking
import ECM.Motion.Interpolation
import ECM.Utilities.Planes
import ECM.Residual.CodedBlockFlags
import ECM.Intra.ReferenceSamples
import ECM.CommonLib.IndexMapping
import ECM.Quant.Dequant
import ECM.Motion.TemporalScaling
import ECM.Transform.SecondaryAdjoint
import ECM.InLoop.SampleOffsets
import ECM.Transform.FastTransforms
import ECM.Slice.CodedSubstreams
