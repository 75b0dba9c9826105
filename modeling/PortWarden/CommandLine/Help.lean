/-!
# Help

What the program tells of itself.
-/

namespace PortWarden.CommandLine

/-- How the program is used. -/
def helpText : String :=
  "Check whether a port is available, or print a randomly selected available port

Usage: avail-port [OPTIONS] <PROTOCOL> [PORT]

Arguments:
  <PROTOCOL>  Protocol: socket|tcp|stream or jgroups|javagroups|multicast|udp
  [PORT]      Port to check; omit it to select a random available port

Options:
      --addr <ADDR>      Bind address (socket) or multicast group (jgroups); host names are resolved
      --membership       Select from the membership port range instead of the general one
      --range <LO-HI>    Bounded search in an explicit range (e.g. 30000-30010)
      --keep <SECS>      Reserve the port and hold it for SECS seconds before releasing it
      --config <CONFIG>  YAML configuration file (AVAILABLE_PORT_* variables override it)
      --json             Print the result as JSON
  -v, --verbose...       Log more (-v info, -vv debug)
  -h, --help             Print help
  -V, --version          Print version
"

/-- The name and the version of the program. -/
def versionText : String := "avail-port 0.1.0\n"

end PortWarden.CommandLine
