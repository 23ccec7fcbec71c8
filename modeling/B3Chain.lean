import B3Chain.Pow.Lwma3Swings
import B3Chain.Pow.Retarget
import B3Chain.Crypto.ReducedMemory
import B3Chain.Crypto.Ports
import B3Chain.Cache.Threads
import B3Chain.Cache.TipPins
import B3Chain.Node.ReorgDepth
import B3Chain.Node.TipExtension
import B3Chain.Node.FlagClosure
import B3Chain.Node.WallClock
import B3Chain.Node.Checkpoints
import B3Chain.Node.CheckpointFile
import B3Chain.Node.ParkCommand
import B3Chain.Node.KnownParents
import B3Chain.Pool.Crediting
import B3Chain.Pool.Interruption
import B3Chain.Pool.Payouts
import B3Chain.Pool.ShareWriter
import B3Chain.Pool.Conservation
import B3Chain.Stratum.NullLines
import B3Chain.Stratum.MinerTargets
import B3Chain.Sv2.NoiseChunks
import B3Chain.Stratum.StaleJobs
import B3Chain.Stratum.Difficulties
import B3Chain.Stratum.VardiffRuns
import B3Chain.Stratum.Announcements
import B3Chain.Sv2.ChannelIntegrity
import B3Chain.Sv2.SessionRounds
import B3Chain.Crypto.Diffusion
import B3Chain.Sv2.SearchSpaces
import B3Chain.Sv2.CreditedHeaders
import B3Chain.Sv2.MerkleRoots
import B3Chain.Sv2.MinedHeaders
import B3Chain.Sv2.HeightPush
import B3Chain.Stratum.LineFraming
import B3Chain.Stratum.FirmwareTargets
import B3Chain.Stratum.TemplatePolls
import B3Chain.Sv2.NoiseHandshake
import B3Chain.Sv2.Translator
import B3Chain.Firmware.LineReader
import B3Chain.Firmware.NonceSearch
import B3Chain.Firmware.Manifest
import B3Chain.GpuMiner.SessionLines
import B3Chain.GpuMiner.ShareSessions
import B3Chain.Monitor.LogTailer
import B3Chain.Monitor.ReorgAlerts
import B3Chain.Sv2.FrameStreams
import B3Chain.Pow.TargetDecoders
import B3Chain.Sv2.ShareAccounts
