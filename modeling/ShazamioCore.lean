import ShazamioCore.ByteCursor
import ShazamioCore.MachineInt
import ShazamioCore.F32
import ShazamioCore.Binary32
import ShazamioCore.RingBuffer
import ShazamioCore.LoopRules
import ShazamioCore.Hanning
import ShazamioCore.SignatureFormat
import ShazamioCore.SignatureLayout
import ShazamioCore.SignatureFraming
import ShazamioCore.BandOrder
import ShazamioCore.SignatureReader
import ShazamioCore.Algorithm
import ShazamioCore.PeakDetection
import ShazamioCore.SpreadRings
import ShazamioCore.GeneratorRun
import ShazamioCore.Interpolation
import ShazamioCore.StreamingPeaks
import ShazamioCore.LocalMaxima
import ShazamioCore.SubBin
import ShazamioCore.SampleRing
import ShazamioCore.ChunkRuns
import ShazamioCore.Communication
import ShazamioCore.Segment
import ShazamioCore.Locality
import ShazamioCore.Acceptance
import ShazamioCore.Resample
import ShazamioCore.WholeClip
import ShazamioCore.FlushLoop
import ShazamioCore.Decode
import ShazamioCore.DecodeScript
import ShazamioCore.Mixdown
import ShazamioCore.CutShort
import ShazamioCore.OtherTracks
import ShazamioCore.MonoStream
import ShazamioCore.ChainedStream
import ShazamioCore.Opus
import ShazamioCore.OpusHeader
import ShazamioCore.PreSkip
import ShazamioCore.PcmSamples
import ShazamioCore.EmptyStream
import ShazamioCore.SignatureSize
import ShazamioCore.DataUri
import ShazamioCore.Recognition
import ShazamioCore.DeferredCalls
import ShazamioCore.PythonApi
import ShazamioCore.PythonRuns
import ShazamioCore.LongerAudio
import ShazamioCore.RealTransform
import ShazamioCore.OpusStream
import ShazamioCore.Crc
import ShazamioCore.SignatureDamage
import ShazamioCore.ShortenedStream
import ShazamioCore.Loudness
