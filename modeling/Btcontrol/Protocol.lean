import Btcontrol.Wire

/-! protocol.dat as the server holds it once loaded: the entries in `std::map` order,
numbered by line, and the hash of the lines that are not comments. -/
namespace Btcontrol

open DataType

def intField (name : String) : MessageLayout := .mk INT (str name) []
def stringField (name : String) : MessageLayout := .mk STRING (str name) []
def arrayField (name : String) (childLayouts : List MessageLayout) : MessageLayout :=
  .mk ARRAY (str name) childLayouts
def message (name : String) (type : Nat) (childLayouts : List MessageLayout) :
    Str × MessageLayout := (str name, .mk type [] childLayouts)

def protocolDat : MessageLayouts where
  entries := [
    message "ACC" 9 [intField "addr"],
    message "ACC_MULTI" 13 [arrayField "list" [intField "addr"]],
    message "BREAK" 10 [intField "addr"],
    message "BREAK_MULTI" 14 [arrayField "list" [intField "addr"]],
    message "BTPUSH" 32 [stringField "addr", intField "type"],
    message "BTPUSH_REPLY" 33 [intField "rc"],
    message "BTSCAN" 30 [],
    message "BTSCAN_REPLY" 31 [arrayField "info" [stringField "addr", stringField "name"]],
    message "DIR" 11 [intField "addr", intField "dir"],
    message "DIR_MULTI" 15 [intField "dir", arrayField "list" [intField "addr"]],
    message "GETFUNCTIONS" 20 [intField "addr"],
    message "GETFUNCTIONS_REPLY" 21 [
      arrayField "info" [stringField "name", intField "value", stringField "imgname"]],
    message "GETIMAGE" 28 [stringField "imgname"],
    message "GETIMAGE_REPLY" 29 [stringField "img"],
    message "GETLOCOS" 22 [],
    message "GETLOCOS_REPLY" 23 [
      arrayField "info" [stringField "name", intField "addr", stringField "imgname", intField "speed", intField "functions"]],
    message "HELO" 5 [intField "protohash", stringField "name", stringField "version"],
    message "HELO_ERR" 6 [intField "protohash", intField "doupdate"],
    message "PING" 7 [],
    message "POM" 24 [intField "addr", intField "cv", intField "value"],
    message "POMBIT" 26 [intField "addr", intField "cv", intField "bit", intField "value"],
    message "POMBIT_REPLY" 27 [intField "value"],
    message "POM_REPLY" 25 [intField "value"],
    message "POWER" 18 [intField "value"],
    message "POWER_REPLY" 19 [intField "value"],
    message "SETFUNC" 17 [intField "addr", intField "funcnr", intField "value"],
    message "STATUS_REPLY" 8 [
      arrayField "info" [intField "addr", intField "speed", intField "functions"]],
    message "STOP" 12 [intField "addr"],
    message "STOP_MULTI" 16 [arrayField "list" [intField "addr"]],
    message "version" 34 [intField "1.0"]]
  protocolHash := 60178
  loaded := true

end Btcontrol
