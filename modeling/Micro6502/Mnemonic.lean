namespace Micro6502

inductive Mnemonic where
  | lda | ldx | ldy | sta | stx | sty | tax | tay | txa | tya | tsx | txs
  | adc | sbc | cmp | cpx | cpy | and | ora | eor | bit
  | asl | lsr | rol | ror | inc | dec | inx | dex | iny | dey
  | bcc | bcs | beq | bne | bmi | bpl
  | jmp | jsr | rts | pha | pla | clc | sec | nop | brk
  deriving DecidableEq, Repr

namespace Mnemonic

def all : List Mnemonic :=
  [lda, ldx, ldy, sta, stx, sty, tax, tay, txa, tya, tsx, txs,
    adc, sbc, cmp, cpx, cpy, and, ora, eor, bit,
    asl, lsr, rol, ror, inc, dec, inx, dex, iny, dey,
    bcc, bcs, beq, bne, bmi, bpl,
    jmp, jsr, rts, pha, pla, clc, sec, nop, brk]

def name : Mnemonic → String
  | lda => "LDA" | ldx => "LDX" | ldy => "LDY"
  | sta => "STA" | stx => "STX" | sty => "STY"
  | tax => "TAX" | tay => "TAY" | txa => "TXA" | tya => "TYA" | tsx => "TSX" | txs => "TXS"
  | adc => "ADC" | sbc => "SBC" | cmp => "CMP" | cpx => "CPX" | cpy => "CPY"
  | and => "AND" | ora => "ORA" | eor => "EOR" | bit => "BIT"
  | asl => "ASL" | lsr => "LSR" | rol => "ROL" | ror => "ROR"
  | inc => "INC" | dec => "DEC" | inx => "INX" | dex => "DEX" | iny => "INY" | dey => "DEY"
  | bcc => "BCC" | bcs => "BCS" | beq => "BEQ" | bne => "BNE" | bmi => "BMI" | bpl => "BPL"
  | jmp => "JMP" | jsr => "JSR" | rts => "RTS" | pha => "PHA" | pla => "PLA"
  | clc => "CLC" | sec => "SEC" | nop => "NOP" | brk => "BRK"

def ofName? (s : String) : Option Mnemonic :=
  all.find? (·.name == s)

end Mnemonic

end Micro6502
