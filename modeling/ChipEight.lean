import ChipEight.Disk
import ChipEight.Main
import ChipEight.Request
import ChipEight.Tone
import ChipEight.Proofs.Host.Stepwise
import ChipEight.Proofs.Machine.Footprint
import ChipEight.Proofs.Screen.Pixel
import ChipEight.Proofs.Screen.SpriteLoop
import ChipEight.Proofs.Screen.DrawSprite
import ChipEight.Proofs.CallStack.Depth
import ChipEight.Proofs.CallStack.View
import ChipEight.Proofs.Machine.CallReturn
import ChipEight.Proofs.Host.Repaint
import ChipEight.Proofs.Machine.AddressAlias
import ChipEight.Proofs.Machine.Timers
import ChipEight.Proofs.Session.Events
import ChipEight.Proofs.Session.Turn
import ChipEight.Proofs.Session.Painting
import ChipEight.Proofs.Session.Replay
import ChipEight.Proofs.Machine.Frame
import ChipEight.Proofs.Machine.Influence
import ChipEight.Proofs.Machine.RandomStream
import ChipEight.Proofs.Host.SeedStream
import ChipEight.Proofs.Instruction.Disassembly
import ChipEight.Proofs.Host.Reporting
import ChipEight.Proofs.Host.EventCount
import ChipEight.Proofs.CommandLine.Headless
import ChipEight.Proofs.Host.Writing
import ChipEight.Proofs.Host.Stopping
import ChipEight.Proofs.Screen.SpriteGroup
import ChipEight.Proofs.Machine.BlockTransfer
import ChipEight.Proofs.Machine.Indexing
import ChipEight.Proofs.Machine.IndexSafety
import ChipEight.Proofs.Session.Account
import ChipEight.Proofs.Session.Closing
import ChipEight.Proofs.Instruction.Decoding
import ChipEight.Proofs.Machine.Arithmetic
import ChipEight.Proofs.Host.Tracing
import ChipEight.Proofs.Host.Observation
import ChipEight.Proofs.Screen.Enlarging
import ChipEight.Proofs.Screen.TextReading
import ChipEight.Proofs.Machine.DecimalDigits
import ChipEight.Proofs.Log.Threshold
