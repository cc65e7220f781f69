namespace Micro6502

inductive Mode where
  | implicit | relative | immediate
  | zeroPage | zeroPageX | zeroPageY
  | absolute | absoluteX | absoluteY
  | indirect | indexedIndirect | indirectIndexed
  deriving DecidableEq, Repr

namespace Mode

def all : List Mode :=
  [implicit, relative, immediate, zeroPage, zeroPageX, zeroPageY, absolute, absoluteX, absoluteY,
    indirect, indexedIndirect, indirectIndexed]

def name : Mode → String
  | implicit => "IMPLICIT"
  | relative => "RELATIVE"
  | immediate => "IMMEDIATE"
  | zeroPage => "ZERO_PAGE"
  | zeroPageX => "ZERO_PAGE_X"
  | zeroPageY => "ZERO_PAGE_Y"
  | absolute => "ABSOLUTE"
  | absoluteX => "ABSOLUTE_X"
  | absoluteY => "ABSOLUTE_Y"
  | indirect => "INDIRECT"
  | indexedIndirect => "INDEXED_INDIRECT"
  | indirectIndexed => "INDIRECT_INDEXED"

def ofName? (s : String) : Option Mode :=
  all.find? (·.name == s)

def operandLength : Mode → Nat
  | implicit => 0
  | absolute | absoluteX | absoluteY | indirect => 2
  | _ => 1

end Mode

end Micro6502
