import NodeGraph.Program
import NodeGraph.Standard.Plug

namespace NodeGraph

/-! Notes, frequencies and tempo. Notes are numbered as in MIDI, in equal
temperament with the A of 440 Hz at 69. Music nodes use up none of the time
step. -/

namespace Music

/-- 440 Hz. -/
def concertPitch : Binary64 := ⟨0x407b800000000000⟩

/-- The number of the note at concert pitch, 69. -/
def concertNote : Binary64 := ⟨0x4051400000000000⟩

def octave : Binary64 := ⟨0x4028000000000000⟩

def noteToFrequency (note : Binary64) : Binary64 :=
  concertPitch * ((note - concertNote) / octave).exp2

/-- The note of a frequency, with a fraction between notes; zero if the
frequency is not positive. -/
def frequencyToNote (frequency : Binary64) : Binary64 :=
  if frequency.atMost .zero then .zero
  else concertNote + octave * (frequency / concertPitch).log2

end Music

namespace NoteToFrequency

def layout (α : Type) [Scalar α] : Layout where
  inputs := [.holding "MIDINote" (Scalar.ofBinary64 Music.concertNote : α)]
  outputs := [.holding "Frequency" Music.concertPitch.toBinary32]

def process (α : Type) [Scalar α] : Program Unit := do
  let note ← Program.readAs α 0
  Program.writeAs 0 (Music.noteToFrequency (Scalar.toBinary64 note)).toBinary32

end NoteToFrequency

namespace FrequencyToNote

def layout : Layout where
  inputs := [.holding "Frequency" Music.concertPitch.toBinary32]
  outputs := [.holding "MIDINote" Music.concertNote.toBinary32]

def process : Program Unit := do
  let frequency ← Program.readAs Binary32 0
  Program.writeAs 0 (Music.frequencyToNote frequency.toBinary64).toBinary32

end FrequencyToNote

namespace BeatLength

/-- 120 beats per minute. -/
def usualTempo : Binary32 := ⟨0x42f00000⟩

def secondsPerMinute : Binary32 := ⟨0x42700000⟩

/-- Half a second, the length of a beat at the usual tempo. -/
def usualBeat : Binary32 := ⟨0x3f000000⟩

/-- The length of a beat in seconds; zero if the tempo is not positive. -/
def beatLength (tempo : Binary32) : Binary32 :=
  if Binary32.zero.less tempo then secondsPerMinute / tempo else .zero

def layout : Layout where
  inputs := [.holding "BPM" usualTempo]
  outputs := [.holding "Seconds" usualBeat]

def process : Program Unit := do
  let tempo ← Program.readAs Binary32 0
  Program.writeAs 0 (beatLength tempo)

end BeatLength

end NodeGraph
