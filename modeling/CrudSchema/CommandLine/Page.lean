import CrudSchema.CommandLine.Switch

/-!
# Help pages

**Pages** (`Page`). The program and each of its commands have a page of help. Its first lines are
the usage, which is also shown when a command line is refused (`Page.refusal`).
-/

namespace CrudSchema.CommandLine

structure Page where
  /-- What to type to reach the page's subject. -/
  subject : String
  usage : String
  body : String

namespace Page

def text (p : Page) : String := p.usage ++ p.body

/-- What is shown for a command line that cannot be read. -/
def refusal (p : Page) (fault : UsageFault) : String :=
  p.usage ++ p.subject ++ ": error: " ++ fault.message ++ "\n"

def program : Page where
  subject := "crudgraph"
  usage := "usage: crudgraph [-h] [--version] [--config CONFIG] \x7binit,generate,check\x7d ...\n"
  body := "
crudgraph - CRUD GraphQL schema synthesis from type declarations

positional arguments:
  \x7binit,generate,check\x7d
                        Available commands
    init                Write default configuration
    generate            Generate the CRUD schema
    check               Check declarations without writing

options:
  -h, --help            show this help message and exit
  --version             show program's version number and exit
  --config CONFIG, -c CONFIG
                        Path to crudgraph.yaml
"

def init : Page where
  subject := "crudgraph init"
  usage := "usage: crudgraph init [-h] [--force]\n"
  body := "
options:
  -h, --help   show this help message and exit
  --force, -f  Overwrite existing config
"

def generate : Page where
  subject := "crudgraph generate"
  usage := "usage: crudgraph generate [-h] [--types TYPES [TYPES ...]] [--schema SCHEMA]
                          [--logical-filters] [--verbose]\n"
  body := "
options:
  -h, --help            show this help message and exit
  --types TYPES [TYPES ...], -t TYPES [TYPES ...]
                        Files or directories with type declarations
  --schema SCHEMA, -s SCHEMA
                        Output path of generated schema ('-' for stdout)
  --logical-filters     Add and/or to filter inputs
  --verbose, -v         Debug logging
"

def check : Page where
  subject := "crudgraph check"
  usage := "usage: crudgraph check [-h] [--types TYPES [TYPES ...]] [--logical-filters]
                       [--verbose]\n"
  body := "
options:
  -h, --help            show this help message and exit
  --types TYPES [TYPES ...], -t TYPES [TYPES ...]
                        Files or directories with type declarations
  --logical-filters     Add and/or to filter inputs
  --verbose, -v         Debug logging
"

end Page

end CrudSchema.CommandLine
