/-
# Scanning a fragment by its bytes

The characters of a text are decoded from its bytes, and the kernel of Lean goes
through all bytes in front of a character to find it. Where a run is evaluated in
the kernel, on texts in ASCII, the characters are mapped from the bytes in one
pass instead, and the headless backend scans what it compiles in this way. Both
are equal to what they stand for.

Key definitions: `Text.charsOfBytes`, `HeadlessBackend.byBytes`.
Key theorems: `Text.charsOfBytes_eq`, `HeadlessBackend.eq_byBytes`.
-/
import AudioShader.Graphics.Headless

namespace AudioShader

/-- The characters of a text, one for each byte if these characters are encoded
so. -/
def Text.charsOfBytes (s : String) : List Char :=
  let bytes := s.toByteArray.data.toList
  let cs := bytes.map fun b => Char.ofNat b.toNat
  if cs.flatMap String.utf8EncodeChar = bytes then cs else s.toList

theorem Text.charsOfBytes_eq (s : String) : charsOfBytes s = s.toList := by
  simp only [charsOfBytes]
  split
  · next h =>
    have hs : String.ofList (s.toByteArray.data.toList.map fun b => Char.ofNat b.toNat) = s := by
      rw [← String.toByteArray_inj, String.toByteArray_ofList, List.utf8Encode, h]
      exact ByteArray.ext (List.data_toByteArray.trans (Array.toArray_toList ..))
    rw [← String.toList_ofList (l := s.toByteArray.data.toList.map _), hs]
  · rfl

namespace HeadlessBackend

/-- The scan of a fragment by its bytes. -/
def scanBytes (fragment : String) : Except String (List Declared) :=
  let lines := (Text.splitLines (Text.charsOfBytes fragment)).map Text.chomp
  let scan := lines.foldl Scan.step {}
  if scan.errors.isEmpty then .ok scan.declarations
  else .error (String.intercalate "\n" scan.errors)

theorem scanBytes_eq (fragment : String) : scanBytes fragment = scanFragment fragment := by
  rw [scanBytes, Text.charsOfBytes_eq]
  rfl

def compileBytes (label fragment : String) : Op ProgramId := do
  match scanBytes fragment with
  | .error log => throw (.compile log)
  | .ok uniforms =>
    let id : ProgramId := ⟨← allocate⟩
    Action.record (.debug "compiled headless program" [("program", toString id.number),
      ("label", label), ("uniforms", toString uniforms.length)])
    modify fun b => { b with programs := b.programs.put id ⟨label, fragment, uniforms⟩ }
    return id

theorem compileBytes_eq : compileBytes = compileProgram := by
  funext label fragment
  rw [compileBytes, scanBytes_eq]
  rfl

/-- The headless backend, with the scan by bytes. -/
abbrev byBytes : GraphicsBackend HeadlessBackend :=
  { instGraphicsBackend with compile := compileBytes }

theorem eq_byBytes : instGraphicsBackend = byBytes := by
  rw [byBytes, compileBytes_eq]
  rfl

end HeadlessBackend
end AudioShader
