/-
# The render loop

Ticks are rendered one after the other until the loop is stopped or its time is
over. A tick that was started is always finished.

Key definitions: `RenderLoop`, `RenderLoop.interval`, `Clock`, `RenderLoop.run`.
-/
import AudioShader.Duration
import AudioShader.Pipeline.Tick

namespace AudioShader

structure RenderLoop where
  frameRate : Nat
  /-- How long the loop goes on at most. -/
  limit : Option Duration := none

/-- What the clock shows at the ticks of a loop, which are counted from zero. -/
structure Clock where
  /-- Seconds since the pipeline was built, when a tick starts. -/
  seconds : Nat → Float32
  /-- The time since the loop was started, when a tick is over. -/
  elapsed : Nat → Duration

namespace RenderLoop

/-- The time from one tick to the next. -/
def interval (l : RenderLoop) : Duration :=
  (Duration.ofSeconds? (1.0 / Float.ofNat (max l.frameRate 1))).getD Duration.zero

/-- Whether the time of the loop is over. -/
def isOver (l : RenderLoop) (elapsed : Duration) : Bool :=
  match l.limit with
  | some limit => limit.toNanos ≤ elapsed.toNanos
  | none => false

variable {σ : Type} [GraphicsBackend σ]

/-- Renders ticks behind `done` others while `alive` says so, at most `most`. -/
def runFrom (l : RenderLoop) (clock : Clock) (alive : σ → Bool) :
    (most done : Nat) → Action (Rendering σ) RenderError Nat
  | 0, done => return done
  | most + 1, done => do
    if !alive (← get).device then return done
    let _ ← renderTick (clock.seconds done)
    if l.isOver (clock.elapsed done) then return done + 1
    l.runFrom clock alive most (done + 1)

/-- Runs the loop and gives the number of ticks. -/
def run (l : RenderLoop) (clock : Clock) (alive : σ → Bool) (most : Nat) :
    Action (Rendering σ) RenderError Nat := do
  let ticks ← l.runFrom clock alive most 0
  Action.record (.info "render loop stopped" [("ticks", toString ticks)])
  return ticks

end RenderLoop
end AudioShader
