import GoRetroTv.InstructionClockSchedule
import GoRetroTv.Mips32Encoding
import GoRetroTv.BitFields
import GoRetroTv.Mips16Refinement
import GoRetroTv.CpuReservation
import GoRetroTv.CpuEvenFlow
import GoRetroTv.CpuInterruptReturn
import GoRetroTv.OwnSnapshots
import GoRetroTv.DmaSnapshot
import GoRetroTv.DmaController
import GoRetroTv.VideoPort
import GoRetroTv.Blitter
import GoRetroTv.DramMemory
import GoRetroTv.I2cSnapshot
import GoRetroTv.EepromStore
import GoRetroTv.Demodulator
import GoRetroTv.BoardInterrupts
import GoRetroTv.CpuSnapshot
import GoRetroTv.CpuInterrupts
import GoRetroTv.InstructionClockCancellation
import GoRetroTv.ContainerHeap
import GoRetroTv.SnapshotCodecLaws
import GoRetroTv.BroadcastCarouselDriver
import GoRetroTv.Mips16Refinement
import GoRetroTv.InstructionClockBatching
import GoRetroTv.InstructionClockInvisible
import GoRetroTv.HuffmanDictionary
import GoRetroTv.HuffmanCoding
import GoRetroTv.MpegCrc
import GoRetroTv.SectionBuilder
import GoRetroTv.ServiceTables
import GoRetroTv.ProgrammeTables
import GoRetroTv.SectionsAccepted
import GoRetroTv.TitleWalk
import GoRetroTv.TransportDescriptors
import GoRetroTv.BouquetPieces
import GoRetroTv.BouquetSections
import GoRetroTv.HardwareTimer
import GoRetroTv.SnapshotSets
import GoRetroTv.CsiLink
import GoRetroTv.ModemUart
import GoRetroTv.SmartcardPort
import GoRetroTv.FlashMemory
import GoRetroTv.BoardLatches
import GoRetroTv.DemuxRegisters
import GoRetroTv.BoardDevices
import GoRetroTv.EepromDurability
import GoRetroTv.FlashCommands
import GoRetroTv.SnapshotSequences
import GoRetroTv.SnapshotSetLaws
import GoRetroTv.DramDigest
import GoRetroTv.BroadcastCarouselLadder
import GoRetroTv.CsiFrames
import GoRetroTv.InstructionClockErrors
import GoRetroTv.ListedSchedule
import GoRetroTv.BoxSubscription
import GoRetroTv.TitleAnswers
import GoRetroTv.ChangingWorld
import GoRetroTv.ScheduleLoading
import GoRetroTv.ScheduleContents
import GoRetroTv.ScheduleReloads
import GoRetroTv.CpuUnaligned
import GoRetroTv.CpuFailedStep
import GoRetroTv.DemuxRings
import GoRetroTv.ScheduleValidation
import GoRetroTv.GuideChoice
import GoRetroTv.OsdCompose
import GoRetroTv.BlitterPixels
import GoRetroTv.PixelLayout
import GoRetroTv.NumberText
import GoRetroTv.TextFields
import GoRetroTv.CheckpointStream
import GoRetroTv.CheckpointRoundTrip
import GoRetroTv.CheckpointAgreement
import GoRetroTv.DemuxTransport
import GoRetroTv.SectionRoutes
import GoRetroTv.FrameTransport
import GoRetroTv.FrameMessages
import GoRetroTv.FrameConvergence
import GoRetroTv.ModemReplies
import GoRetroTv.CsiReplies
import GoRetroTv.AnnouncedTimes
import GoRetroTv.GdbPackets
import GoRetroTv.PesPackets
import GoRetroTv.EepromProtocol
import GoRetroTv.ServicesCarried
import GoRetroTv.GreedyChoice
import GoRetroTv.ProgrammeRecords
import GoRetroTv.DirtyRectangles
import GoRetroTv.BinarySearch
import GoRetroTv.BusDecoding
import GoRetroTv.TaskWalk
import GoRetroTv.PlaylistScript
import GoRetroTv.SmartcardReplies
import GoRetroTv.TimerCadence
import GoRetroTv.GdbContinue
import GoRetroTv.BlitterCopies
import GoRetroTv.DemuxBursts
import GoRetroTv.TransportRecovery
import GoRetroTv.BoardAcceptance
import GoRetroTv.BusSnapshots
import GoRetroTv.FirstSeen
import GoRetroTv.UnmappedCensus
import GoRetroTv.MachineRuns
import GoRetroTv.PolicyRuns
import GoRetroTv.BoardDecoding
import GoRetroTv.TransmittedWaves
