import AudioShader.Graphics.FailOnce
import AudioShader.Graphics.Minimal
import AudioShader.Graphics.OffloadPlan
import AudioShader.RunFile.Read
import AudioShader.Session
import AudioShader.Lowering.Module
import AudioShader.Proofs.Action
import AudioShader.Proofs.Source.Breaks
import AudioShader.Proofs.Source.Trace
import AudioShader.Proofs.Source.Attribution
import AudioShader.Proofs.Text.Lines
import AudioShader.Proofs.Text.Words
import AudioShader.Proofs.Graphics.Offences
import AudioShader.Proofs.Graphics.Location
import AudioShader.Proofs.Graphics.Diagnosis
import AudioShader.Proofs.Stage.Header
import AudioShader.Proofs.Stage.Diagnosis
import AudioShader.Proofs.Signal.Ready
import AudioShader.Proofs.Signal.Offload
import AudioShader.Proofs.Pipeline.Trace
import AudioShader.Proofs.Pipeline.Unshared
import AudioShader.Proofs.Shadow
import AudioShader.Proofs.Pipeline.Sharing
import AudioShader.Proofs.Pipeline.Ticks
import AudioShader.Proofs.Pipeline.Runs
import AudioShader.Proofs.Stage.Numbering
import AudioShader.Proofs.Graphics.Outline
import AudioShader.Proofs.Graphics.Custody
import AudioShader.Proofs.Stage.Holdings
import AudioShader.Proofs.Pipeline.Lifetime
import AudioShader.Proofs.Graphics.Journal
import AudioShader.Proofs.Graphics.Live
import AudioShader.Proofs.Pipeline.Release
import AudioShader.Proofs.Signal.Lengths
import AudioShader.Proofs.Stage.Declared
import AudioShader.Proofs.Uniform.Accepted
import AudioShader.Proofs.Stage.Attach
import AudioShader.Proofs.Stage.Sources
import AudioShader.Proofs.Graphics.Growth
import AudioShader.Proofs.Pipeline.Draws
import AudioShader.Proofs.Pipeline.Suited
import AudioShader.Proofs.Alongside
import AudioShader.Proofs.Source.Blanked
import AudioShader.Proofs.Source.Inlining
import AudioShader.Proofs.Source.Opaque
import AudioShader.Proofs.Matching
import AudioShader.Proofs.Source.Handlers
import AudioShader.Proofs.Source.Nesting
import AudioShader.Proofs.Number.Quotient
import AudioShader.Proofs.Settings.Valid
import AudioShader.Proofs.Signal.Apart
import AudioShader.Proofs.Signal.Handoff
import AudioShader.Proofs.Source.Terminated
import AudioShader.Proofs.Settings.Injected
import AudioShader.Proofs.Graphics.Stores
import AudioShader.Proofs.Source.Unlogged
import AudioShader.Proofs.Stage.Files
import AudioShader.Proofs.Stage.Active
import AudioShader.Proofs.Pipeline.Shown
import AudioShader.Proofs.Pipeline.Built
import AudioShader.Proofs.Pipeline.Sequence
import AudioShader.Proofs.Uniform.Updates
import AudioShader.Proofs.Pipeline.Externals
import AudioShader.Proofs.Signal.Gravity
import AudioShader.Proofs.Signal.Average
import AudioShader.Proofs.Signal.Sized
import AudioShader.Proofs.Graphics.Coherent
import AudioShader.Proofs.Settings.Independent
import AudioShader.Proofs.Graphics.Refused
import AudioShader.Proofs.Signal.Keyframes
import AudioShader.Proofs.Signal.Smooth
import AudioShader.Proofs.Stage.Requested
import AudioShader.Proofs.Source.Typed
import AudioShader.Proofs.Settings.Finite
import AudioShader.Proofs.Source.Verbatim
import AudioShader.Proofs.Source.Defaults
import AudioShader.Proofs.Color
import AudioShader.Proofs.Source.Arguments
import AudioShader.Proofs.Source.LineByLine
import AudioShader.Proofs.Lowering.Placement
import AudioShader.Proofs.Lowering.Declared
import AudioShader.Proofs.Lowering.Block
import AudioShader.Proofs.Lowering.Lines
import AudioShader.Proofs.Lowering.Layout
import AudioShader.Proofs.Folders.Expansion
import AudioShader.Proofs.RunFile.Read
import AudioShader.Proofs.Source.Targets
import AudioShader.Proofs.Source.Definitions
import AudioShader.Proofs.Settings.Folder
import AudioShader.Proofs.Signal.Split
import AudioShader.Proofs.Source.Bytewise.Process
