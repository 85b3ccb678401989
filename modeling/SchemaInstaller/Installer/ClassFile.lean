import SchemaInstaller.Installer.Program

/-!
# The class of an installer

The file of the class: a remark about its source, the three methods, and the methods that these
rely on when they run.
-/

namespace SchemaInstaller

open Php

namespace ClassFile

/-! ## The methods that others rely on -/

/-- The method that puts the prefix in the place of its token. -/
def prefixMethod : List Line := [
  .code 1 "/**",
  .code 1 " * Resolve the prefix placeholder to this site's prefix. Generated SQL is",
  .code 1 " * already interpolated by PHP; only a literal placeholder token that",
  .code 1 " * survived in a definition is left to replace. The token is split so",
  .code 1 " * the installer never contains the source prefix verbatim.",
  .code 1 " */",
  .code 1 "private function apply_prefix( $sql ) \x7b",
  .code 2 "return str_ireplace( '\x7bwp' . '_\x7d', $this->prefix, $sql );",
  .code 1 "\x7d"]

/-- The method that lists the tables of the host. -/
def coreTablesMethod : List Line := [
  .code 1 "/**",
  .code 1 " * Lowercase names of the tables the host owns, under both the network",
  .code 1 " * and the site prefix.",
  .code 1 " */",
  .code 1 "private function core_tables() \x7b",
  .code 2 "$tables = array();",
  .code 2 "foreach ( self::CORE_TABLES as $name ) \x7b",
  .code 3 "$tables[] = strtolower( $this->wpdb->base_prefix . $name );",
  .code 3 "$tables[] = strtolower( $this->prefix . $name );",
  .code 2 "\x7d",
  .code 2 "return array_values( array_unique( $tables ) );",
  .code 1 "\x7d"]

/-- The method that tells whether a table belongs to the host. -/
def isCoreTableMethod : List Line := [
  .code 1 "private function is_core_table( $table ) \x7b",
  .code 2 "return in_array( strtolower( trim( $table, '`' ) ), $this->core_tables(), true );",
  .code 1 "\x7d"]

/-- The method that tells whether a statement changes a table of the host. -/
def targetsCoreTableMethod : List Line := [
  .code 1 "/**",
  .code 1 " * Whether a statement alters, drops or truncates a host table.",
  .code 1 " */",
  .code 1 "private function targets_core_table( $sql ) \x7b",
  .code 2 "$names = array_map(",
  .code 3 "function ( $table ) \x7b",
  .code 4 "return preg_quote( $table, '/' );",
  .code 3 "\x7d,",
  .code 3 "$this->core_tables()",
  .code 2 ");",
  .code 2 "if ( empty( $names ) ) \x7b",
  .code 3 "return false;",
  .code 2 "\x7d",
  .code 2 ("$pattern = '/^\\s*(?:ALTER|DROP|TRUNCATE)\\s+TABLE\\s+(?:IF\\s+EXISTS\\s+)?`?(?:'"
    ++ " . implode( '|', $names ) . ')`?(?![\\w$])/i';"),
  .code 2 "return 1 === preg_match( $pattern, $sql );",
  .code 1 "\x7d"]

/-- The method that runs a statement. -/
def runSqlMethod : List Line := [
  .code 1 "/**",
  .code 1 " * Execute one generated statement. Statements that would change a host",
  .code 1 " * table are refused.",
  .code 1 " */",
  .code 1 "private function run_sql( $sql ) \x7b",
  .code 2 "$sql = $this->apply_prefix( $sql );",
  .code 2 "if ( $this->targets_core_table( $sql ) ) \x7b",
  .code 3 "return false;",
  .code 2 "\x7d",
  .code 2 "return $this->wpdb->query( $sql );",
  .code 1 "\x7d"]

/-- The methods behind the three of the installer. -/
def support : List Line :=
  [Line.blank].intercalate
    [prefixMethod, coreTablesMethod, isCoreTableMethod, targetsCoreTableMethod, runSqlMethod]

/-! ## The file -/

/-- The remark about where the class comes from. -/
def heading (p : Plan) : List Line :=
  [.code 0 "<?php", .code 0 "/**",
    ⟨0, [.code " * Database installer ", .name p.className, .code "."]⟩, .code 0 " *",
    ⟨0, [.code " * Generated by schemapress from database ", .comment p.manifest.database.toList,
      .code " (", .comment p.manifest.generatedAt.toHeading, .code ")."]⟩,
    .code 0 " * Regenerate from the manifest instead of editing by hand.", .code 0 " */"]

/-- A way out when the file is called on its own. -/
def guard : List Line :=
  [.code 0 "if ( ! defined( 'ABSPATH' ) ) \x7b", .code 1 "exit;", .code 0 "\x7d"]

/-- The list of core tables. -/
def coreTablesLine (o : InstallerOptions) : Line :=
  let names := o.coreTables.map fun t => Fragment.singleQuoted t.toList
  ⟨1, .code "const CORE_TABLES = array( " :: names.intersperse (.code ", ") ++ [.code " );"]⟩

/-- The fields of the class and how an object of it is made. -/
def state : List Line :=
  [.code 1 "/** @var wpdb */", .code 1 "private $wpdb;", .blank, .code 1 "/** @var string */",
    .code 1 "private $prefix;", .blank, .code 1 "public function __construct( $wpdb ) \x7b",
    .code 2 "$this->wpdb = $wpdb;", .code 2 "$this->prefix = $wpdb->get_blog_prefix();",
    .code 1 "\x7d", .blank]

/-- The lines of the file. -/
def lines (p : Plan) : List Line :=
  heading p ++ .blank :: guard
    ++ [.blank, ⟨0, [.code "class ", .name p.className, .code " \x7b"]⟩, .blank,
      coreTablesLine p.options, .blank]
    ++ state ++ p.installMethod ++ p.populateMethod ++ p.uninstallMethod ++ support
    ++ [.code 0 "\x7d"]

end ClassFile

end SchemaInstaller
