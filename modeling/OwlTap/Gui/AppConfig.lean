import OwlTap.Gui.FlatJson
import OwlTap.Gui.WaveformView

/-!
# Application settings

`AppConfig` is saved to a text with a line for each setting (`save`) and loaded from it by its keys (`load`). Buses and
lanes are written as objects, each on its own line.
-/

namespace OwlTap.Gui

open OwlTap Bsdl

/-- A lane of the logic analyser: a slice of the captured word. -/
structure IlaSignalConfig where
  name : Text
  hi : BitVec 32 := 0
  lo : BitVec 32 := 0
  fmt : BusFormat := .hex
  /-- Group A. -/
  trigCond : BitVec 32 := 0
  trigValue : BitVec 32 := 0
  /-- Group B. -/
  trigCondB : BitVec 32 := 0
  trigValueB : BitVec 32 := 0
  deriving DecidableEq

/-- Persistent application settings. -/
@[ext]
structure AppConfig where
  vendorId : BitVec 16 := 0x0403
  productId : BitVec 16 := 0x6010
  serial : Text := []
  interfaceChannel : BitVec 32 := 0
  clockFreqHz : BitVec 32 := 1000000
  bsdlPath : Text := []
  bsdlDeviceIndex : BitVec 32 := 0
  selectedPins : List Text := []
  buses : List BusDefinition := []
  ilaSignals : List IlaSignalConfig := []
  ilaOrMode : Bool := false
  ilaGeneratorOutputSubdir : Text := "hdl/ila/generated/ila_generated".toList
  ilaGeneratorProjectName : Text := "ila_generated".toList
  ilaGeneratorTopModule : Text := "ila_generated_top".toList
  ilaGeneratorFpgaPart : Text := "xc7z020clg400-1".toList
  ilaGeneratorClockPortName : Text := "sample_clk".toList
  ilaGeneratorResetPortName : Text := "sample_rst_n".toList
  ilaGeneratorDataPortName : Text := "data_in".toList
  ilaGeneratorValidPortName : Text := "data_valid".toList
  ilaGeneratorSampleClockHz : BitVec 32 := 125000000
  ilaGeneratorDataWidth : BitVec 32 := 32
  ilaGeneratorDepth : BitVec 32 := 1024
  ilaGeneratorIdcode : BitVec 32 := 0xA17A0001
  ilaGeneratorLanes : List IlaSignalConfig := []
  ilaConfigJsonPath : Text := []
  xdcPath : Text := []
  deriving DecidableEq

/-! ### Lists of objects -/

def BusFormat.text : BusFormat → Text
  | .dec => "DEC".toList
  | .bin => "BIN".toList
  | .hex => "HEX".toList

/-- Anything else is hexadecimal. -/
def BusFormat.ofText (fmtStr : Text) : BusFormat :=
  if fmtStr = "DEC".toList then .dec else if fmtStr = "BIN".toList then .bin else .hex

/-- The bus of an object, if it has a name. -/
def parseBus (obj : Text) : Option BusDefinition :=
  let name := jsonString obj "name".toList
  if name = [] then none
  else some
    { name, signals := jsonStringArray obj "signals".toList, format := BusFormat.ofText (jsonString obj "format".toList) }

/-- The buses of a key. -/
def jsonBusArray (json key : Text) : List BusDefinition := (jsonObjects json key).filterMap parseBus

/-- The lane of an object, if it has a name. -/
def parseIlaSignal (obj : Text) : Option IlaSignalConfig :=
  let name := jsonString obj "name".toList
  if name = [] then none
  else some
    { name
      hi := BitVec.ofInt 32 (jsonInt obj "hi".toList 0)
      lo := BitVec.ofInt 32 (jsonInt obj "lo".toList 0)
      fmt := BusFormat.ofText (jsonString obj "fmt".toList)
      trigCond := BitVec.ofInt 32 (jsonInt obj "trig_cond".toList 0)
      trigValue := BitVec.ofInt 32 (jsonInt obj "trig_value".toList 0)
      trigCondB := BitVec.ofInt 32 (jsonInt obj "trig_cond_b".toList 0)
      trigValueB := BitVec.ofInt 32 (jsonInt obj "trig_value_b".toList 0) }

/-- The lanes of a key. -/
def jsonIlaSignalArray (json key : Text) : List IlaSignalConfig := (jsonObjects json key).filterMap parseIlaSignal

/-! ### What is written -/

/-- An entry of a list. -/
inductive Item where
  | pin (p : Text)
  | bus (b : BusDefinition)
  | lane (l : IlaSignalConfig)

/-- A string that is written. -/
def stringText (s : Text) : Text := '"' :: (jsonEscape s ++ ['"'])

/-- Strings with commas between them. -/
def commaStrings : List Text → Text
  | [] => []
  | [s] => stringText s
  | s :: t :: ss => stringText s ++ [','] ++ commaStrings (t :: ss)

/-- A key in an object. -/
def keyText (key : Text) : Text := quoted key ++ [':']

namespace Item

def text : Item → Text
  | .pin p => stringText p
  | .bus b =>
    ['\x7b'] ++ keyText "name".toList ++ stringText b.name ++ [','] ++ keyText "signals".toList ++ ['['] ++
      commaStrings b.signals ++ [']', ','] ++ keyText "format".toList ++ quoted b.format.text ++ ['\x7d']
  | .lane l =>
    ['\x7b'] ++ keyText "name".toList ++ stringText l.name ++ [','] ++ keyText "hi".toList ++ decimal l.hi.toInt ++ [','] ++
      keyText "lo".toList ++ decimal l.lo.toInt ++ [','] ++ keyText "fmt".toList ++ quoted l.fmt.text ++ [','] ++
      keyText "trig_cond".toList ++ decimal l.trigCond.toInt ++ [','] ++ keyText "trig_value".toList ++
      decimal l.trigValue.toNat ++ [','] ++ keyText "trig_cond_b".toList ++ decimal l.trigCondB.toInt ++ [','] ++
      keyText "trig_value_b".toList ++ decimal l.trigValueB.toNat ++ ['\x7d']

theorem text_pin (p : Text) : (Item.pin p).text = stringText p := rfl

theorem text_bus (b : BusDefinition) : (Item.bus b).text =
    ['\x7b'] ++ keyText "name".toList ++ stringText b.name ++ [','] ++ keyText "signals".toList ++ ['['] ++
      commaStrings b.signals ++ [']', ','] ++ keyText "format".toList ++ quoted b.format.text ++ ['\x7d'] := rfl

theorem text_lane (l : IlaSignalConfig) : (Item.lane l).text =
    ['\x7b'] ++ keyText "name".toList ++ stringText l.name ++ [','] ++ keyText "hi".toList ++ decimal l.hi.toInt ++ [','] ++
      keyText "lo".toList ++ decimal l.lo.toInt ++ [','] ++ keyText "fmt".toList ++ quoted l.fmt.text ++ [','] ++
      keyText "trig_cond".toList ++ decimal l.trigCond.toInt ++ [','] ++ keyText "trig_value".toList ++
      decimal l.trigValue.toNat ++ [','] ++ keyText "trig_cond_b".toList ++ decimal l.trigCondB.toInt ++ [','] ++
      keyText "trig_value_b".toList ++ decimal l.trigValueB.toNat ++ ['\x7d'] := rfl

end Item

/-- The value of a setting. -/
inductive Value where
  | number (n : ℤ)
  | string (s : Text)
  | list (items : List Item)

/-- The lines of entries. -/
def itemLines : List Item → Text
  | [] => []
  | [item] => "    ".toList ++ item.text ++ "\n".toList
  | item :: item' :: items => "    ".toList ++ item.text ++ ",\n".toList ++ itemLines (item' :: items)

def Value.text : Value → Text
  | .number n => decimal n
  | .string s => stringText s
  | .list items =>
    "[".toList ++ (if items = [] then [] else "\n".toList ++ itemLines items ++ "  ".toList) ++ "]".toList

/-- A line of the file. -/
structure Line where
  key : Text
  value : Value
  ending : Text := ",\n".toList

def Line.text (line : Line) : Text :=
  "  ".toList ++ quoted line.key ++ ": ".toList ++ line.value.text ++ line.ending

namespace AppConfig

/-- The lines that are saved, in their order; the lanes of the generator without their triggers. -/
def lines (cfg : AppConfig) : List Line := [
  { key := "vendor_id".toList, value := .number cfg.vendorId.toNat },
  { key := "product_id".toList, value := .number cfg.productId.toNat },
  { key := "serial".toList, value := .string cfg.serial },
  { key := "interface_channel".toList, value := .number cfg.interfaceChannel.toInt },
  { key := "clock_freq_hz".toList, value := .number cfg.clockFreqHz.toNat },
  { key := "bsdl_path".toList, value := .string cfg.bsdlPath },
  { key := "bsdl_device_index".toList, value := .number cfg.bsdlDeviceIndex.toInt },
  { key := "selected_pins".toList, value := .list (cfg.selectedPins.map .pin) },
  { key := "buses".toList, value := .list (cfg.buses.map .bus) },
  { key := "ila_signals".toList, value := .list (cfg.ilaSignals.map .lane) },
  { key := "ila_generator_output_subdir".toList, value := .string cfg.ilaGeneratorOutputSubdir },
  { key := "ila_generator_project_name".toList, value := .string cfg.ilaGeneratorProjectName },
  { key := "ila_generator_top_module".toList, value := .string cfg.ilaGeneratorTopModule },
  { key := "ila_generator_fpga_part".toList, value := .string cfg.ilaGeneratorFpgaPart },
  { key := "ila_generator_clock_port_name".toList, value := .string cfg.ilaGeneratorClockPortName },
  { key := "ila_generator_reset_port_name".toList, value := .string cfg.ilaGeneratorResetPortName },
  { key := "ila_generator_data_port_name".toList, value := .string cfg.ilaGeneratorDataPortName },
  { key := "ila_generator_valid_port_name".toList, value := .string cfg.ilaGeneratorValidPortName },
  { key := "ila_generator_sample_clock_hz".toList, value := .number cfg.ilaGeneratorSampleClockHz.toNat },
  { key := "ila_generator_data_width".toList, value := .number cfg.ilaGeneratorDataWidth.toInt },
  { key := "ila_generator_depth".toList, value := .number cfg.ilaGeneratorDepth.toInt },
  { key := "ila_generator_idcode".toList, value := .number cfg.ilaGeneratorIdcode.toNat },
  { key := "ila_generator_lanes".toList
    value := .list (cfg.ilaGeneratorLanes.map fun s => .lane { name := s.name, hi := s.hi, lo := s.lo, fmt := s.fmt }) },
  { key := "ila_config_json_path".toList, value := .string cfg.ilaConfigJsonPath },
  { key := "xdc_path".toList, value := .string cfg.xdcPath },
  { key := "ila_or_mode".toList, value := .number (if cfg.ilaOrMode then 1 else 0), ending := "\n".toList }]

/-- The contents of the file that is saved, if it can be opened. -/
def save (isOpen : Bool) (cfg : AppConfig) : Option Text :=
  if isOpen then some ("\x7b\n".toList ++ cfg.lines.flatMap Line.text ++ "\x7d\n".toList) else none

/-- A string of the generator that is not there is the one that it has without settings. -/
def orDefault (s dflt : Text) : Text := if s = [] then dflt else s

/-- The settings of a file, given by its contents if it can be opened. -/
def load (file : Option Text) : AppConfig :=
  match file with
  | none => {}
  | some json =>
    { vendorId := BitVec.ofInt 16 (jsonInt json "vendor_id".toList 0x0403)
      productId := BitVec.ofInt 16 (jsonInt json "product_id".toList 0x6010)
      serial := jsonString json "serial".toList
      interfaceChannel := BitVec.ofInt 32 (jsonInt json "interface_channel".toList 0)
      clockFreqHz := BitVec.ofInt 32 (jsonInt json "clock_freq_hz".toList 1000000)
      bsdlPath := jsonString json "bsdl_path".toList
      bsdlDeviceIndex := BitVec.ofInt 32 (jsonInt json "bsdl_device_index".toList 0)
      selectedPins := jsonStringArray json "selected_pins".toList
      buses := jsonBusArray json "buses".toList
      ilaSignals := jsonIlaSignalArray json "ila_signals".toList
      ilaGeneratorOutputSubdir :=
        orDefault (jsonString json "ila_generator_output_subdir".toList) "hdl/ila/generated/ila_generated".toList
      ilaGeneratorProjectName := orDefault (jsonString json "ila_generator_project_name".toList) "ila_generated".toList
      ilaGeneratorTopModule := orDefault (jsonString json "ila_generator_top_module".toList) "ila_generated_top".toList
      ilaGeneratorFpgaPart := orDefault (jsonString json "ila_generator_fpga_part".toList) "xc7z020clg400-1".toList
      ilaGeneratorClockPortName := orDefault (jsonString json "ila_generator_clock_port_name".toList) "sample_clk".toList
      ilaGeneratorResetPortName := orDefault (jsonString json "ila_generator_reset_port_name".toList) "sample_rst_n".toList
      ilaGeneratorDataPortName := orDefault (jsonString json "ila_generator_data_port_name".toList) "data_in".toList
      ilaGeneratorValidPortName := orDefault (jsonString json "ila_generator_valid_port_name".toList) "data_valid".toList
      ilaGeneratorSampleClockHz := BitVec.ofInt 32 (jsonInt json "ila_generator_sample_clock_hz".toList 125000000)
      ilaGeneratorDataWidth := BitVec.ofInt 32 (jsonInt json "ila_generator_data_width".toList 32)
      ilaGeneratorDepth := BitVec.ofInt 32 (jsonInt json "ila_generator_depth".toList 1024)
      ilaGeneratorIdcode := BitVec.ofInt 32 (jsonInt json "ila_generator_idcode".toList 0xA17A0001)
      ilaGeneratorLanes := jsonIlaSignalArray json "ila_generator_lanes".toList
      ilaConfigJsonPath := jsonString json "ila_config_json_path".toList
      xdcPath := jsonString json "xdc_path".toList
      ilaOrMode := jsonInt json "ila_or_mode".toList 0 ≠ 0 }

end AppConfig

end OwlTap.Gui
