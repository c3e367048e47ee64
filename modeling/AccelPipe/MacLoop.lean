import AccelPipe.Assembly.Program
import AccelPipe.Config.Read

/-! A counted loop of multiply-accumulate operations. -/
namespace AccelPipe.MacLoop

def source (iterations : Int) : String :=
  String.intercalate "\n"
    ["",
     "        li   x1, " ++ Text.decimal iterations,
     "        li   x2, 3",
     "        li   x3, 4",
     "    loop:",
     "        mac  x4, x2, x3",
     "        addi x1, x1, -1",
     "        bne  x1, x0, loop",
     "        ecall",
     "    "]

def program (iterations : Int) : Except Assembly.Error Assembly.Program :=
  Assembly.assemble (source iterations).toList 0

/-- The configuration of a long run: it keeps no trace. -/
def config (given : Settings) : Except ConfigError Config :=
  Config.read (assign (assign given "trace" (.bool false)) "max_cycles" (.int 10000000))

end AccelPipe.MacLoop
