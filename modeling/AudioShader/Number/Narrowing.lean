/-
# Narrowing to single precision

A double-precision number becomes the nearest single-precision one; of two
equally near, the one whose mantissa is even. What is too large for single
precision becomes infinite.

Key definitions: `narrow`.
-/

namespace AudioShader

/-- The single-precision number nearest to a double-precision one. -/
def narrow (x : Float) : Float32 :=
  .ofModel <| .pack <|
    match x.toModel.unpack with
    | .finite sign mantissa exponent _ => .round .binary32 sign mantissa exponent
    | u => u

end AudioShader
