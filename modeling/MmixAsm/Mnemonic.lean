/-
  The mnemonics of the machine's operations.

  An operation is encoded by one byte, and the table lists
  the mnemonics in the order of that byte, so the opcode of a
  mnemonic is its place in the table.

  Key definitions include:
    * `MmixAsm.Mnemonic.table`
    * `MmixAsm.Mnemonic.opcode?`
-/

------------------------------------------------------------
-- Mnemonics
------------------------------------------------------------

namespace MmixAsm

namespace Mnemonic

/- The 256 mnemonics, each at the place of its opcode. -/
def table : List String := [
  "TRAP", "FCMP", "FUN", "FEQL",
  "FADD", "FIX", "FSUB", "FIXU",
  "FLOT", "FLOTI", "FLOTU", "FLOTUI",
  "SFLOT", "SFLOTI", "SFLOTU", "SFLOTUI",
  "FMUL", "FCMPE", "FUNE", "FEQLE",
  "FDIV", "FSQRT", "FREM", "FINT",
  "MUL", "MULI", "MULU", "MULUI",
  "DIV", "DIVI", "DIVU", "DIVUI",
  "ADD", "ADDI", "ADDU", "ADDUI",
  "SUB", "SUBI", "SUBU", "SUBUI",
  "2ADDU", "2ADDUI", "4ADDU", "4ADDUI",
  "8ADDU", "8ADDUI", "16ADDU", "16ADDUI",
  "CMP", "CMPI", "CMPU", "CMPUI",
  "NEG", "NEGI", "NEGU", "NEGUI",
  "SL", "SLI", "SLU", "SLUI",
  "SR", "SRI", "SRU", "SRUI",
  "BN", "BNB", "BZ", "BZB",
  "BP", "BPB", "BOD", "BODB",
  "BNN", "BNNB", "BNZ", "BNZB",
  "BNP", "BNPB", "BEV", "BEVB",
  "PBN", "PBNB", "PBZ", "PBZB",
  "PBP", "PBPB", "PBOD", "PBODB",
  "PBNN", "PBNNB", "PBNZ", "PBNZB",
  "PBNP", "PBNPB", "PBEV", "PBEVB",
  "CSN", "CSNI", "CSZ", "CSZI",
  "CSP", "CSPI", "CSOD", "CSODI",
  "CSNN", "CSNNI", "CSNZ", "CSNZI",
  "CSNP", "CSNPI", "CSEV", "CSEVI",
  "ZSN", "ZSNI", "ZSZ", "ZSZI",
  "ZSP", "ZSPI", "ZSOD", "ZSODI",
  "ZSNN", "ZSNNI", "ZSNZ", "ZSNZI",
  "ZSNP", "ZSNPI", "ZSEV", "ZSEVI",
  "LDB", "LDBI", "LDBU", "LDBUI",
  "LDW", "LDWI", "LDWU", "LDWUI",
  "LDT", "LDTI", "LDTU", "LDTUI",
  "LDO", "LDOI", "LDOU", "LDOUI",
  "LDSF", "LDSFI", "LDHT", "LDHTI",
  "CSWAP", "CSWAPI", "LDUNC", "LDUNCI",
  "LDVTS", "LDVTSI", "PRELD", "PRELDI",
  "PREGO", "PREGOI", "GO", "GOI",
  "STB", "STBI", "STBU", "STBUI",
  "STW", "STWI", "STWU", "STWUI",
  "STT", "STTI", "STTU", "STTUI",
  "STO", "STOI", "STOU", "STOUI",
  "STSF", "STSFI", "STHT", "STHTI",
  "STCO", "STCOI", "STUNC", "STUNCI",
  "SYNCD", "SYNCDI", "PREST", "PRESTI",
  "SYNCID", "SYNCIDI", "PUSHGO", "PUSHGOI",
  "OR", "ORI", "ORN", "ORNI",
  "NOR", "NORI", "XOR", "XORI",
  "AND", "ANDI", "ANDN", "ANDNI",
  "NAND", "NANDI", "NXOR", "NXORI",
  "BDIF", "BDIFI", "WDIF", "WDIFI",
  "TDIF", "TDIFI", "ODIF", "ODIFI",
  "MUX", "MUXI", "SADD", "SADDI",
  "MOR", "MORI", "MXOR", "MXORI",
  "SETH", "SETMH", "SETML", "SETL",
  "INCH", "INCMH", "INCML", "INCL",
  "ORH", "ORMH", "ORML", "ORL",
  "ANDNH", "ANDNMH", "ANDNML", "ANDNL",
  "JMP", "JMPB", "PUSHJ", "PUSHJB",
  "GETA", "GETAB", "PUT", "PUTI",
  "POP", "RESUME", "SAVE", "UNSAVE",
  "SYNC", "SWYM", "GET", "TRIP"
]

/- The opcode of a mnemonic. -/
def opcode? (word : String) : Option UInt8 :=
  (table.idxOf? word).map UInt8.ofNat

end Mnemonic

end MmixAsm
