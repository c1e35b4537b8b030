/-! The fixed limits of the language. -/

namespace MiniLisp

/-- How deep lists may nest in source, unless the reader is told otherwise. -/
def maxNesting : Nat := 128

def maxDepth : Nat := 10000

/-- The largest text, in bytes, that a repetition builds. -/
def maxTextBytes : Nat := 268435456

end MiniLisp
