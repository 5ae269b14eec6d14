set_option autoImplicit false

namespace SourceScope

namespace Attr

def location : Nat := 0x02
def name : Nat := 0x03
def byteSize : Nat := 0x0b
def lineTable : Nat := 0x10
def lowPc : Nat := 0x11
def highPc : Nat := 0x12
def compilationDirectory : Nat := 0x1b
def constValue : Nat := 0x1c
def inlined : Nat := 0x20
def upperBound : Nat := 0x2f
def abstractOrigin : Nat := 0x31
def count : Nat := 0x37
def dataMemberLocation : Nat := 0x38
def declarationFile : Nat := 0x3a
def declarationLine : Nat := 0x3b
def declaration : Nat := 0x3c
def encoding : Nat := 0x3e
def external : Nat := 0x3f
def frameBase : Nat := 0x40
def specification : Nat := 0x47
def type : Nat := 0x49
def ranges : Nat := 0x55
def callFile : Nat := 0x58
def callLine : Nat := 0x59
def linkageName : Nat := 0x6e
def stringOffsetsBase : Nat := 0x72
def addressBase : Nat := 0x73
def oldLinkageName : Nat := 0x2007
def oldAddressBase : Nat := 0x2133

def kept : List Nat :=
  [name, linkageName, oldLinkageName, compilationDirectory, lineTable, lowPc, highPc, ranges, type,
    byteSize, encoding, dataMemberLocation, count, upperBound, location, frameBase, constValue,
    abstractOrigin, specification, declaration, external, declarationFile, declarationLine,
    callFile, callLine, inlined]

end Attr

namespace Tag

def arrayType : Nat := 0x01
def enumerationType : Nat := 0x04
def formalParameter : Nat := 0x05
def lexicalBlock : Nat := 0x0b
def member : Nat := 0x0d
def pointerType : Nat := 0x0f
def structureType : Nat := 0x13
def typedef : Nat := 0x16
def unionType : Nat := 0x17
def inlinedSubroutine : Nat := 0x1d
def subrangeType : Nat := 0x21
def baseType : Nat := 0x24
def constType : Nat := 0x26
def subprogram : Nat := 0x2e
def variable_ : Nat := 0x34
def volatileType : Nat := 0x35

end Tag

end SourceScope
