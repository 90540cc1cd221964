import Dwarves.CString
import Dwarves.Libc
import Dwarves.BtfEncoder.Elf
import Dwarves.BtfEncoder.Dwarf
import Dwarves.BtfEncoder.Writer
import Dwarves.BtfEncoder.NameValid
import Dwarves.BtfEncoder.Functions
import Dwarves.BtfEncoder.Symbols
import Dwarves.BtfEncoder.TypeEncoder
import Dwarves.BtfEncoder.Driver
import Dwarves.BtfEncoder.Lifecycle
import Dwarves.BtfEncoder.Emission
import Dwarves.BtfEncoder.Growth
import Dwarves.BtfEncoder.IndexType
import Dwarves.BtfEncoder.Rejections
import Dwarves.BtfEncoder.Datasec
import Dwarves.BtfEncoder.SymbolTable
import Dwarves.BtfEncoder.References
import Dwarves.BtfEncoder.PercpuOrigin
import Dwarves.Pfunct
