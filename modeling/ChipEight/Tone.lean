/-!
The sound of a tone, a square wave. Its samples follow the sign of a sine, so
the first one is zero and all others lie at full height above or below. A mixer
with several channels plays the same wave on each of them.
-/

namespace ChipEight

/-- The samples of a sound as a mixer takes them: one after the other, or in
frames that hold a sample for each of its channels. -/
inductive Samples where
  | plain (samples : List Int)
  | framed (channels : Nat) (frames : List (Vector Int channels))

namespace Samples

def shape : Samples → List Nat
  | plain samples => [samples.length]
  | framed channels frames => [frames.length, channels]

def channels : Samples → List (List Int)
  | plain samples => [samples]
  | framed channels frames => (List.finRange channels).map fun c => frames.map (·.get c)

def spread (channels : Nat) (wave : List Int) : Samples :=
  if 1 < channels then framed channels (wave.map (Vector.replicate channels)) else plain wave

/-- Each channel has the whole wave. -/
theorem channels_spread (channels : Nat) (wave : List Int) :
    (spread channels wave).channels = List.replicate (max channels 1) wave := by
  unfold spread
  split
  case isTrue hseveral =>
    have hchannel (c : Fin channels) :
        (wave.map (Vector.replicate channels)).map (·.get c) = wave := by
      rw [List.map_map]
      exact List.map_id'' (fun a => Vector.getElem_replicate c.isLt) wave
    have hcount : max channels 1 = channels := by omega
    simp only [Samples.channels, hchannel, List.map_const', List.length_finRange, hcount]
  case isFalse hsingle =>
    have hcount : max channels 1 = 1 := by omega
    rw [hcount]
    rfl

end Samples

namespace Tone

def sampleRate : Float := 44100

def frequency : Float := 440

def amplitude : Int := 6000

def defaultDuration : Float := 1 / 60 * 4

def sampleCount (duration : Float) : Nat := (sampleRate * duration).toUInt64.toNat

def swing (i : Nat) : Float :=
  Float.sin (2 * 3.141592653589793 * frequency * (Float.ofNat i / sampleRate))

def sample (i : Nat) : Int :=
  if 0 < swing i then amplitude else if swing i < 0 then -amplitude else 0

def wave (duration : Float) : List Int := (List.range (sampleCount duration)).map sample

def beep (duration : Float) (channels : Nat) : Samples := .spread channels (wave duration)

end Tone

end ChipEight
