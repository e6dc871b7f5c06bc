import Ttp2.Lib.Octets

/-! # The packet types (`packet_types.h`, `tdfs_packet_types.h`)

A C++ `int` is an `Int32`, a `std::string` and a byte vector are octet
strings. An Arrow table is a value of a type `T` left open: tables are made
and taken apart by the Arrow library only. -/
namespace Ttp2
open Lib

namespace Packet

structure Standard where
  payload : Bytes := []
  deriving DecidableEq

structure File (T : Type) where
  filePath : Bytes := []
  start : Int32 := -1
  end_ : Int32 := -1
  payload : T
  deriving DecidableEq

structure ViewportRequest where
  xStart : Int32 := 0
  xEnd : Int32 := 0
  yStart : Int32 := 0
  yEnd : Int32 := 0
  deriving DecidableEq

structure Viewport (T : Type) where
  xStart : Int32 := 0
  xEnd : Int32 := 0
  yStart : Int32 := 0
  yEnd : Int32 := 0
  payload : T
  deriving DecidableEq

structure TqlQuery where
  query : Bytes := []
  deriving DecidableEq

structure Error where
  code : Int32 := 0
  message : Bytes := []
  deriving DecidableEq

structure Universal where
  type : Int32
  bytes : Bytes
  deriving DecidableEq

structure Ls where
  directory : Bytes
  deriving DecidableEq

structure LsSolution where
  content : List Bytes
  deriving DecidableEq

/-- `std::variant<Standard, File, …>`, its alternatives in the source's order. -/
inductive PayloadVariants (T : Type) where
  | standard (standard : Standard)
  | file (file : File T)
  | viewportRequest (viewportRequest : ViewportRequest)
  | viewport (viewport : Viewport T)
  | tqlQuery (tqlQuery : TqlQuery)
  | error (error : Error)
  | universal (universal : Universal)
  | ls (ls : Ls)
  | lsSolution (lsSolution : LsSolution)
  deriving DecidableEq

/-- `std::variant::index`: which alternative the variant holds. -/
def PayloadVariants.index {T : Type} : PayloadVariants T → Fin 9
  | .standard _ => 0
  | .file _ => 1
  | .viewportRequest _ => 2
  | .viewport _ => 3
  | .tqlQuery _ => 4
  | .error _ => 5
  | .universal _ => 6
  | .ls _ => 7
  | .lsSolution _ => 8

end Packet

/-- A packet. The default one, with the sentinel id -1 and an empty
`Standard`, is what the receiving functions return when they have nothing. -/
structure Packet (T : Type) where
  id : Int32 := -1
  payload : Packet.PayloadVariants T := .standard {}
  deriving DecidableEq

end Ttp2
